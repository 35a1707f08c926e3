/-! The settings of validation. -/

namespace Conform

structure Config where
  maxDepth : Nat := 256
  enumPreview : Nat := 5
deriving DecidableEq, Inhabited

def version : String := "0.1.0"

end Conform
