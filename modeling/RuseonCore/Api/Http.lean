import Mathlib.Tactic

/-!
# Requests and answers

Helpers shared by the HTTP handlers: the answers they give, the trimming of
names in request bodies and the reading of numbers in query strings.
-/

namespace RuseonCore
namespace Api

/-- Answer to a request: one of the statuses `ok` and `created`, or an HTTP
status with an error text. -/
inductive Response
  | ok
  | created
  | error (status : Nat) (text : String)
  deriving DecidableEq

/-- White space in the sense of `unicode.IsSpace`. -/
def isSpace (c : Char) : Bool :=
  c.toNat ∈ [0x09, 0x0a, 0x0b, 0x0c, 0x0d, 0x20, 0x85, 0xa0, 0x1680, 0x2028,
    0x2029, 0x202f, 0x205f, 0x3000] ||
    (0x2000 ≤ c.toNat && c.toNat ≤ 0x200a)

/-- Cut white space from both ends. -/
def trimSpace (s : String) : String :=
  String.ofList
    ((s.toList.dropWhile isSpace).reverse.dropWhile isSpace).reverse

/-- Decimal integer with an optional sign, within 64 bits. -/
def atoi (s : String) : Option Int :=
  let (negative, digits) :=
    match s.toList with
    | '-' :: digits => (true, digits)
    | '+' :: digits => (false, digits)
    | digits => (false, digits)
  if digits = [] ∨ ¬ digits.all Char.isDigit then none
  else
    let value : Int := digits.foldl
      (fun value digit => 10 * value + (digit.toNat - '0'.toNat)) 0
    let value := if negative then -value else value
    if -2 ^ 63 ≤ value ∧ value < 2 ^ 63 then some value else none

end Api
end RuseonCore
