import HttpServer.Basic
import HttpServer.Sha1.Fips
import HttpServer.Sha1.Context
import HttpServer.Sha1.Transform
import HttpServer.Sha1.Streaming
import HttpServer.Base64.Codec
import HttpServer.Base64.Rfc4648
import HttpServer.Base64.Encoding
import HttpServer.Base64.Decoding
import HttpServer.EventGroup.Posix
import HttpServer.EventGroup.Safety
import HttpServer.EventGroup.Waiting
import HttpServer.TestClient.Connection
import HttpServer.TestClient.Send
import HttpServer.TestClient.CString
import HttpServer.TestClient.Header
import HttpServer.TestClient.Response
import HttpServer.TestClient.Request
import HttpServer.TestClient.Handshake
import HttpServer.WebSocket.Frame
import HttpServer.WebSocket.AcceptKey
