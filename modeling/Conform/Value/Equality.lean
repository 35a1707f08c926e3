import Conform.Value.Basic

/-! Two equalities of values. Both compare trees in order and both take numbers as the
number format does, so a float that is not a number equals nothing. They differ in
whether an integer can equal a float. -/

namespace Conform

namespace Value

mutual

/-- Equality of trees, where `mixed` decides between an integer and a float. -/
def agree (mixed : Int64 → Double → Bool) : Value → Value → Bool
  | undefined, undefined => true
  | null, null => true
  | bool a, bool b => a == b
  | int a, int b => a == b
  | int a, float y => mixed a y
  | float x, int b => mixed b x
  | float x, float y => x == y
  | bigInt a, bigInt b => a == b
  | string a, string b => a == b
  | symbol a, symbol b => a == b
  | function a, function b => a == b
  | list a, list b => agreeItems mixed a b
  | object a, object b => agreeFields mixed a b
  | instanceOf c a, instanceOf d b => c == d && agreeFields mixed a b
  | _, _ => false

def agreeItems (mixed : Int64 → Double → Bool) : List Value → List Value → Bool
  | [], [] => true
  | a :: as, b :: bs => agree mixed a b && agreeItems mixed as bs
  | _, _ => false

def agreeFields (mixed : Int64 → Double → Bool) :
    List (String × Value) → List (String × Value) → Bool
  | [], [] => true
  | (k, a) :: as, (l, b) :: bs => k == l && agree mixed a b && agreeFields mixed as bs
  | _, _ => false

end

instance : BEq Value where
  beq := agree fun _ _ => false

/-- Equality by numeric value, which equality rules use: an integer equals a float when
the number nearest to it does. -/
def strictEq : Value → Value → Bool :=
  agree fun i x => Double.ofInt i.toInt == x

end Value

end Conform
