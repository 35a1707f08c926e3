import Mathlib
import Conform.Proofs.ValueTree

/-! Literals without ambiguity. Read from the left, the literal of plain data ends where it has to, whatever follows it
in a list, so that no two such values are written alike. -/

namespace Conform

namespace Value

inductive IsKeyword : Value → Prop where
  | undefined : IsKeyword undefined
  | null : IsKeyword null
  | bool (b : Bool) : IsKeyword (bool b)

inductive IsInteger : Value → Prop where
  | int (i : Int64) : IsInteger (int i)
  | bigInt (i : Int) : IsInteger (bigInt i)

def IsWord (v : Value) : Prop := v.IsKeyword ∨ v.IsInteger

inductive Readable : Value → Prop where
  | word {v : Value} (word : IsWord v) : Readable v
  | string (s : String) : Readable (string s)
  | list {xs : List Value} (each : ∀ x ∈ xs, Readable x) : Readable (list xs)

section Words

def isNumeral (c : Char) : Bool := c.isDigit || c == '-'

theorem isNumeral_of_mem_repr {i : Int} {c : Char} (member : c ∈ i.repr.toList) : isNumeral c = true := by
  have digits {n : Nat} (inside : c ∈ n.repr.toList) : c.isDigit = true := by
    rw [Nat.toList_repr] at inside
    exact Nat.isDigit_of_mem_toDigits (by decide) (by decide) inside
  rw [Int.repr_eq_if] at member
  unfold isNumeral
  split at member
  · simp [digits member]
  · rw [String.toList_append, List.mem_append] at member
    rcases member with sign | inside
    · simp_all
    · simp [digits inside]

theorem repr_ne_empty (i : Int) : i.repr ≠ "" := by
  rw [Int.repr_eq_if]
  split
  · exact Nat.repr_ne_empty
  · simp

theorem literal_bigInt (i : Int) : (bigInt i).literal = i.repr ++ "n" := rfl

theorem IsInteger.letters {v : Value} (integer : v.IsInteger) : ∀ c ∈ v.literal.toList, isNumeral c = true ∨ c = 'n' := by
  intro c member
  cases integer with
  | int i => exact .inl (isNumeral_of_mem_repr member)
  | bigInt i =>
    rw [literal_bigInt, String.toList_append, List.mem_append] at member
    rcases member with inside | suffix
    · exact .inl (isNumeral_of_mem_repr inside)
    · exact .inr (List.mem_singleton.1 suffix)

theorem IsKeyword.exists_letter {v : Value} (keyword : v.IsKeyword) :
    ∃ c ∈ v.literal.toList, ¬(isNumeral c = true ∨ c = 'n') := by
  cases keyword with
  | undefined => exact ⟨'u', by decide, by decide⟩
  | null => exact ⟨'u', by decide, by decide⟩
  | bool b =>
    cases b with
    | true => exact ⟨'u', by decide, by decide⟩
    | false => exact ⟨'a', by decide, by decide⟩

theorem keyword_ne_integer {v w : Value} (keyword : v.IsKeyword) (integer : w.IsInteger) : v.literal ≠ w.literal := by
  intro same
  obtain ⟨c, member, other⟩ := keyword.exists_letter
  rw [same] at member
  exact other (integer.letters c member)

theorem int_ne_bigInt (i : Int64) (k : Int) : (int i).literal ≠ (bigInt k).literal := by
  intro same
  have suffix : 'n' ∈ (bigInt k).literal.toList := by simp [literal_bigInt]
  rw [← same] at suffix
  exact absurd (isNumeral_of_mem_repr suffix) (by decide)

def ofKeyword : String → Value
  | "undefined" => undefined
  | "null" => null
  | "true" => bool true
  | _ => bool false

theorem ofKeyword_literal {v : Value} (keyword : v.IsKeyword) : ofKeyword v.literal = v := by
  cases keyword with
  | undefined | null => rfl
  | bool b => cases b <;> rfl

theorem eq_of_integers {v w : Value} (first : v.IsInteger) (second : w.IsInteger) (same : v.literal = w.literal) :
    v = w := by
  cases first with
  | int i =>
    cases second with
    | int k => rw [Int64.toInt_inj.1 (Int.repr_injective same)]
    | bigInt k => exact absurd same (int_ne_bigInt i k)
  | bigInt i =>
    cases second with
    | int k => exact absurd same.symm (int_ne_bigInt k i)
    | bigInt k =>
      rw [literal_bigInt, literal_bigInt, String.append_left_inj] at same
      rw [Int.repr_injective same]

theorem eq_of_words {v w : Value} (first : v.IsWord) (second : w.IsWord) (same : v.literal = w.literal) : v = w := by
  rcases first with keyword | integer
  · rcases second with keyword' | integer'
    · rw [← ofKeyword_literal keyword, same, ofKeyword_literal keyword']
    · exact absurd same (keyword_ne_integer keyword integer')
  · rcases second with keyword' | integer'
    · exact absurd same.symm (keyword_ne_integer keyword' integer)
    · exact eq_of_integers integer integer' same

end Words

section Ends

/-- What may follow a literal inside of a list. -/
def Follows (rest : List Char) : Prop := ∀ c ∈ rest.head?, c = ',' ∨ c = ']'

theorem follows_nil : Follows [] := nofun

theorem follows_comma (rest : List Char) : Follows (',' :: rest) := by
  intro c member
  cases member
  exact .inl rfl

theorem follows_bracket (rest : List Char) : Follows (']' :: rest) := by
  intro c member
  cases member
  exact .inr rfl

def isWordChar (c : Char) : Bool := c.isAlphanum || c == '-'

theorem IsWord.chars {v : Value} (word : v.IsWord) : ∀ c ∈ v.literal.toList, isWordChar c = true := by
  intro c member
  rcases word with keyword | integer
  · have each : v.literal.toList.all isWordChar = true := by
      cases keyword with
      | undefined | null => decide
      | bool b => cases b <;> decide
    exact List.all_eq_true.1 each c member
  · rcases integer.letters c member with numeral | rfl
    · unfold isNumeral at numeral
      unfold isWordChar Char.isAlphanum
      grind
    · decide

theorem takeWhile_word {v : Value} (word : v.IsWord) {rest : List Char} (follows : Follows rest) :
    (v.literal.toList ++ rest).takeWhile isWordChar = v.literal.toList := by
  rw [List.takeWhile_append_of_pos word.chars, List.append_right_eq_self]
  cases rest with
  | nil => rfl
  | cons c rest =>
    apply List.takeWhile_cons_of_neg
    rcases follows c rfl with rfl | rfl <;> decide

theorem word_append_inj {v w : Value} (first : v.IsWord) (second : w.IsWord) {s t : List Char} (follows : Follows s)
    (follows' : Follows t) (same : v.literal.toList ++ s = w.literal.toList ++ t) : v = w ∧ s = t := by
  have words : v.literal.toList = w.literal.toList := by
    rw [← takeWhile_word first follows, same, takeWhile_word second follows']
  refine ⟨eq_of_words first second (String.toList_inj.1 words), ?_⟩
  rw [words] at same
  exact List.append_cancel_left same

end Ends

section Strings

def escaped (cs : List Char) : List Char := cs.flatMap fun c => if c = '\\' ∨ c = '"' then ['\\', c] else [c]

/-- Reads up to the quote that closes a string, and leaves what comes behind it. -/
def unquote : List Char → List Char × List Char
  | [] => ([], [])
  | '"' :: rest => ([], rest)
  | '\\' :: c :: rest => ((unquote rest).map (c :: ·) id)
  | c :: rest => ((unquote rest).map (c :: ·) id)

theorem unquote_escaped (cs rest : List Char) : unquote (escaped cs ++ '"' :: rest) = (cs, rest) := by
  induction cs with
  | nil => rfl
  | cons c cs ih =>
    unfold escaped at ih ⊢
    rw [List.flatMap_cons, List.append_assoc]
    by_cases special : c = '\\' ∨ c = '"'
    · rw [if_pos special, List.cons_append, List.cons_append, List.nil_append, unquote, ih]
      rfl
    · rw [if_neg special, List.cons_append, List.nil_append, unquote, ih]
      · rfl
      all_goals grind

theorem toList_literal_string (s : String) : (string s).literal.toList = '"' :: (escaped s.toList ++ ['"']) := by
  simp [literal, escape, escaped]

theorem string_append_inj {a b : String} {s t : List Char}
    (same : (string a).literal.toList ++ s = (string b).literal.toList ++ t) : a = b ∧ s = t := by
  have quoted (a : String) (s : List Char) : (string a).literal.toList ++ s = '"' :: (escaped a.toList ++ '"' :: s) := by
    simp [toList_literal_string]
  rw [quoted, quoted] at same
  have read := congrArg unquote (List.cons.inj same).2
  rw [unquote_escaped, unquote_escaped] at read
  exact ⟨String.toList_inj.1 (Prod.mk.inj read).1, (Prod.mk.inj read).2⟩

end Strings

theorem IsWord.exists_first {v : Value} (word : v.IsWord) :
    ∃ c rest, v.literal.toList = c :: rest ∧ isWordChar c = true := by
  have written : v.literal ≠ "" := by
    rcases word with keyword | integer
    · cases keyword with
      | undefined | null => decide
      | bool b => cases b <;> decide
    · cases integer with
      | int i => exact repr_ne_empty _
      | bigInt i => simp [literal_bigInt]
  cases chars : v.literal.toList with
  | nil => exact absurd (String.toList_eq_nil_iff.1 chars) written
  | cons c rest => exact ⟨c, rest, rfl, word.chars c (by simp [chars])⟩

section Lists

def laterElements (xs : List Value) : List Char := xs.flatMap fun x => ',' :: ' ' :: x.literal.toList

theorem toList_commaSeparated (part : String) (parts : List String) :
    (commaSeparated (part :: parts)).toList = part.toList ++ parts.flatMap fun p => ',' :: ' ' :: p.toList := by
  induction parts generalizing part with
  | nil => simp [commaSeparated]
  | cons next parts ih =>
    have comma : ", ".toList = [',', ' '] := by decide
    unfold commaSeparated at ih ⊢
    rw [String.intercalate_cons_cons, String.toList_append, String.toList_append, ih, comma]
    simp

theorem toList_literal_list (xs : List Value) :
    (list xs).literal.toList = '[' :: ((commaSeparated (literals xs)).toList ++ [']']) := by
  simp [literal]

theorem toList_literal_nil (rest : List Char) : (list []).literal.toList ++ rest = '[' :: ']' :: rest := by
  simp [toList_literal_list, literals, commaSeparated]

theorem toList_literal_cons (x : Value) (xs : List Value) (rest : List Char) :
    (list (x :: xs)).literal.toList ++ rest = '[' :: (x.literal.toList ++ (laterElements xs ++ ']' :: rest)) := by
  simp [toList_literal_list, literals_eq, toList_commaSeparated, laterElements, List.flatMap_map]

theorem laterElements_cons (x : Value) (xs : List Value) (rest : List Char) :
    laterElements (x :: xs) ++ rest = ',' :: ' ' :: (x.literal.toList ++ (laterElements xs ++ rest)) := by
  simp [laterElements]

theorem follows_laterElements (xs : List Value) (rest : List Char) : Follows (laterElements xs ++ ']' :: rest) := by
  cases xs with
  | nil => exact follows_bracket rest
  | cons x xs => exact follows_comma _

/-- The first character of a literal tells words, strings and lists apart. -/
theorem Readable.sort {v : Value} (readable : v.Readable) {c : Char} {rest later : List Char}
    (starts : v.literal.toList ++ rest = c :: later) :
    isWordChar c = true ∧ v.IsWord ∨ c = '"' ∧ (∃ s, v = Value.string s) ∨
      c = '[' ∧ ∃ xs, v = Value.list xs ∧ ∀ x ∈ xs, x.Readable := by
  cases readable with
  | word word =>
    obtain ⟨d, others, written, plain⟩ := word.exists_first
    rw [written] at starts
    obtain rfl : d = c := (List.cons.inj starts).1
    exact .inl ⟨plain, word⟩
  | string s =>
    rw [toList_literal_string] at starts
    exact .inr (.inl ⟨(List.cons.inj starts).1.symm, s, rfl⟩)
  | list each =>
    rw [toList_literal_list] at starts
    exact .inr (.inr ⟨(List.cons.inj starts).1.symm, _, rfl, each⟩)

theorem Readable.ne_bracket {v : Value} (readable : v.Readable) (rest later : List Char) :
    v.literal.toList ++ rest ≠ ']' :: later := by
  intro starts
  rcases readable.sort starts with ⟨plain, _⟩ | ⟨quote, _⟩ | ⟨bracket, _⟩
  · exact absurd plain (by decide)
  · exact absurd quote (by decide)
  · exact absurd bracket (by decide)

/-- Where the literal of a value starts a text, no other value has its literal there. -/
def Delimited (v : Value) : Prop :=
  ∀ {w : Value} {s t : List Char}, w.Readable → Follows s → Follows t →
    v.literal.toList ++ s = w.literal.toList ++ t → v = w ∧ s = t

theorem laterElements_append_inj {xs ys : List Value} (delimited : ∀ x ∈ xs, x.Delimited)
    (readable : ∀ y ∈ ys, y.Readable) {s t : List Char}
    (same : laterElements xs ++ ']' :: s = laterElements ys ++ ']' :: t) : xs = ys ∧ s = t := by
  induction xs generalizing ys with
  | nil =>
    cases ys with
    | nil => exact ⟨rfl, (List.cons.inj same).2⟩
    | cons y ys =>
      rw [laterElements_cons] at same
      exact absurd (List.cons.inj same).1 (by decide)
  | cons x xs ih =>
    rw [laterElements_cons] at same
    cases ys with
    | nil => exact absurd (List.cons.inj same).1 (by decide)
    | cons y ys =>
      rw [laterElements_cons] at same
      obtain ⟨first, rest⟩ := List.forall_mem_cons.1 delimited
      obtain ⟨first', others⟩ := List.forall_mem_cons.1 readable
      have texts := (List.cons.inj (List.cons.inj same).2).2
      obtain ⟨rfl, later⟩ := first first' (follows_laterElements xs s) (follows_laterElements ys t) texts
      obtain ⟨rfl, behind⟩ := ih rest others later
      exact ⟨rfl, behind⟩

theorem list_append_inj {xs ys : List Value} (delimited : ∀ x ∈ xs, x.Delimited) (own : ∀ x ∈ xs, x.Readable)
    (readable : ∀ y ∈ ys, y.Readable) {s t : List Char}
    (same : (list xs).literal.toList ++ s = (list ys).literal.toList ++ t) : xs = ys ∧ s = t := by
  cases xs with
  | nil =>
    rw [toList_literal_nil] at same
    cases ys with
    | nil =>
      rw [toList_literal_nil] at same
      exact ⟨rfl, (List.cons.inj (List.cons.inj same).2).2⟩
    | cons y ys =>
      rw [toList_literal_cons] at same
      exact absurd (List.cons.inj same).2.symm ((readable y List.mem_cons_self).ne_bracket _ _)
  | cons x xs =>
    rw [toList_literal_cons] at same
    cases ys with
    | nil =>
      rw [toList_literal_nil] at same
      exact absurd (List.cons.inj same).2 ((own x List.mem_cons_self).ne_bracket _ _)
    | cons y ys =>
      rw [toList_literal_cons] at same
      -- With a comma in front of both, the first elements are no different from the later ones.
      have texts : laterElements (x :: xs) ++ ']' :: s = laterElements (y :: ys) ++ ']' :: t := by
        rw [laterElements_cons, laterElements_cons, (List.cons.inj same).2]
      exact laterElements_append_inj delimited readable texts

end Lists

theorem Readable.delimited {v : Value} (readable : v.Readable) : v.Delimited := by
  induction readable with
  | @word v word =>
    intro w s t second follows follows' same
    obtain ⟨c, rest, written, plain⟩ := word.exists_first
    have starts : w.literal.toList ++ t = c :: (rest ++ s) := by rw [← same, written, List.cons_append]
    rcases second.sort starts with ⟨_, word'⟩ | ⟨rfl, _⟩ | ⟨rfl, _⟩
    · exact word_append_inj word word' follows follows' same
    · exact absurd plain (by decide)
    · exact absurd plain (by decide)
  | string a =>
    intro w s t second _ _ same
    have starts : w.literal.toList ++ t = '"' :: (escaped a.toList ++ ['"'] ++ s) := by
      rw [← same, toList_literal_string, List.cons_append]
    rcases second.sort starts with ⟨plain, _⟩ | ⟨_, b, rfl⟩ | ⟨bracket, _⟩
    · exact absurd plain (by decide)
    · obtain ⟨rfl, rest⟩ := string_append_inj same
      exact ⟨rfl, rest⟩
    · exact absurd bracket (by decide)
  | @list xs each ih =>
    intro w s t second _ _ same
    have starts : w.literal.toList ++ t = '[' :: ((commaSeparated (literals xs)).toList ++ [']'] ++ s) := by
      rw [← same, toList_literal_list, List.cons_append]
    rcases second.sort starts with ⟨plain, _⟩ | ⟨quote, _⟩ | ⟨_, ys, rfl, readable⟩
    · exact absurd plain (by decide)
    · exact absurd quote (by decide)
    · obtain ⟨rfl, rest⟩ := list_append_inj ih each readable same
      exact ⟨rfl, rest⟩

/-- Plain data with one literal is one value. -/
theorem eq_of_literal_eq {a b : Value} (first : a.Readable) (second : b.Readable) (same : a.literal = b.literal) :
    a = b :=
  (first.delimited second follows_nil follows_nil (congrArg (·.toList ++ []) same)).1

def brackets (text : String) (count : Int) : Value := .list [.string text, .list [], .bigInt count]

theorem readable_brackets (text : String) (count : Int) : (brackets text count).Readable := by
  refine .list (List.forall_mem_cons.2 ⟨.string text, List.forall_mem_cons.2 ⟨.list nofun, ?_⟩⟩)
  exact List.forall_mem_singleton.2 (.word (.inr (.bigInt count)))

theorem brackets_eq_of_literal :
    (brackets "], \"\\" 5).Readable ∧ (brackets ("], " ++ "\"\\") (2 + 3)).Readable ∧
      (brackets "], \"\\" 5).literal = (brackets ("], " ++ "\"\\") (2 + 3)).literal ∧
      brackets "], \"\\" 5 = brackets ("], " ++ "\"\\") (2 + 3) := by
  have same : (brackets "], \"\\" 5).literal = (brackets ("], " ++ "\"\\") (2 + 3)).literal := rfl
  exact ⟨readable_brackets _ _, readable_brackets _ _, same,
    eq_of_literal_eq (readable_brackets _ _) (readable_brackets _ _) same⟩

end Value

end Conform
