import Conform.Unicode.Category

/-! Character classes by name: general categories, their groups, and a few properties. A
name is taken loosely, without regard to case, blanks, hyphens and underscores. -/

namespace Conform

namespace Unicode

/-- A name in the form in which names are compared. A leading `is` is dropped too, unless
only `c` would be left. -/
def looseName (name : String) : String :=
  let lower := name.toList.map Char.toLower
  let (hasIs, rest) := match lower with
    | 'i' :: 's' :: rest => (true, rest)
    | all => (false, all)
  let kept := rest.filter fun c => c.toNat < 128 && !(c == ' ' || c == '_' || c == '-')
  if hasIs && kept == ['c'] then "isc" else String.ofList kept

open Category in
def categoryNames : List (List String × List Category) := [
  (["lu", "uppercaseletter"], [lu]), (["ll", "lowercaseletter"], [ll]),
  (["lt", "titlecaseletter"], [lt]), (["lc", "casedletter"], [lu, ll, lt]),
  (["lm", "modifierletter"], [lm]), (["lo", "otherletter"], [lo]),
  (["l", "letter"], [lu, ll, lt, lm, lo]),
  (["mn", "nonspacingmark"], [mn]), (["mc", "spacingmark"], [mc]),
  (["me", "enclosingmark"], [me]), (["m", "mark", "combiningmark"], [mn, mc, me]),
  (["nd", "decimalnumber", "digit"], [nd]), (["nl", "letternumber"], [nl]),
  (["no", "othernumber"], [no]), (["n", "number"], [nd, nl, no]),
  (["pc", "connectorpunctuation"], [pc]), (["pd", "dashpunctuation"], [pd]),
  (["ps", "openpunctuation"], [ps]), (["pe", "closepunctuation"], [pe]),
  (["pi", "initialpunctuation"], [pi]), (["pf", "finalpunctuation"], [pf]),
  (["po", "otherpunctuation"], [po]),
  (["p", "punctuation", "punct"], [pc, pd, ps, pe, pi, pf, po]),
  (["sm", "mathsymbol"], [sm]), (["sc", "currencysymbol"], [sc]),
  (["sk", "modifiersymbol"], [sk]), (["so", "othersymbol"], [so]),
  (["s", "symbol"], [sm, sc, sk, so]),
  (["zs", "spaceseparator"], [zs]), (["zl", "lineseparator"], [zl]),
  (["zp", "paragraphseparator"], [zp]), (["z", "separator"], [zs, zl, zp]),
  (["cc", "control", "cntrl"], [cc]), (["cf", "format"], [cf]),
  (["cs", "surrogate"], [cs]), (["co", "privateuse"], [co]), (["cn", "unassigned"], [cn]),
  (["c", "other"], [cc, cf, cs, co, cn])]

def categoryClass? (name : String) : Option (Char → Bool) :=
  match name with
  | "any" => some fun _ => true
  | "assigned" => some fun c => category c != .cn
  | "ascii" => some fun c => c.toNat < 128
  | _ => (categoryNames.find? (·.1.contains name)).map fun (_, members) c =>
      members.contains (category c)

def namedClass? (name : String) : Option (Char → Bool) :=
  match looseName name with
  | "alphabetic" | "alpha" => some isAlphabetic
  | "whitespace" | "wspace" | "space" => some isWhiteSpace
  | loose => categoryClass? loose

def valueClass? (property value : String) : Option (Char → Bool) :=
  match looseName property with
  | "generalcategory" | "gc" => categoryClass? (looseName value)
  | _ => none

end Unicode

end Conform
