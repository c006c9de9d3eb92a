import Mathlib

/- Machine types shared by the codecs. `uint8_t`, `unsigned char` and `char` are one byte;
   a `char` compares with ASCII literals the same whether it is signed or not. -/
namespace HttpServer

abbrev Byte := BitVec 8
abbrev Word := BitVec 32

def ascii (c : Char) : Byte := BitVec.ofNat 8 c.toNat

theorem mul_two_pow_or {b k : Nat} (a : Nat) (small : b < 2 ^ k) :
    a * 2 ^ k ||| b = a * 2 ^ k + b := by
  rw [Nat.mul_comm, Nat.mul_add_lt_is_or small]

end HttpServer
