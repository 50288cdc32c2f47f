import CodeSearch.Proofs.Chunk.LiveText
import Mathlib.Data.List.Infix

/-! # Declarations with a balanced body

Between the name of a declaration and its body stand its parameters, whose default values may have
braces of their own. The scanner passes over these as long as they stand in parentheses, and over
what is nested in the body, and stops at the brace that closes the body.
-/

namespace CodeSearch.Boundary

/-- What stands in front of a body. -/
def IsHead : Bool → List Char → Prop
  | true, text =>
    excess '{' '}' text = 0 ∧ excess '(' ')' text = 0 ∧
      ∀ front, front ++ ['}'] <+: text → 0 < excess '(' ')' front
  | false, text => '{' ∉ text ∧ '}' ∉ text

/-- What stands between the braces of a body. -/
structure IsInner (countParens : Bool) (text : List Char) : Prop where
  braces : excess '{' '}' text = 0
  nested : ∀ front, front <+: text → 0 ≤ excess '{' '}' front
  parens : countParens = true → excess '(' ')' text = 0

variable {countParens : Bool} {head inner : List Char}

theorem IsHead.braces (isHead : IsHead countParens head) : excess '{' '}' head = 0 := by
  cases countParens with
  | true => exact isHead.1
  | false => simp [excess, List.count_eq_zero.2 isHead.1, List.count_eq_zero.2 isHead.2]

theorem IsHead.parens (isHead : IsHead countParens head) (counted : countParens = true) :
    excess '(' ')' head = 0 := by
  subst counted
  exact isHead.2.1

/-- A brace in default values leaves a parenthesis open. -/
theorem IsHead.open (isHead : IsHead countParens head) {front : List Char}
    (shorter : front ++ ['}'] <+: head) : ¬ClosesAll countParens front := by
  cases countParens with
  | true =>
    have deep := isHead.2.2 front shorter
    exact fun closes => absurd (closes.2.2 rfl) (by omega)
  | false => exact absurd (shorter.subset (by simp)) isHead.2

/-- A nested brace leaves the body open. -/
theorem IsInner.open (isInner : IsInner countParens inner) (braces : excess '{' '}' head = 0)
    {front : List Char} (shorter : front ++ ['}'] <+: inner) :
    ¬ClosesAll countParens (head ++ '{' :: front) := by
  rintro ⟨-, one, -⟩
  have nested := isInner.nested _ shorter
  rw [excess_append] at nested
  rw [List.append_cons, excess_append, excess_append, braces] at one
  simp [excess] at nested one
  omega

/-- The brace behind a body leaves nothing open. -/
theorem IsInner.closesAll (isInner : IsInner countParens inner)
    (isHead : IsHead countParens head) : ClosesAll countParens (head ++ '{' :: inner) := by
  refine ⟨by simp, ?_, fun counted => ?_⟩
  · rw [List.append_cons, excess_append, excess_append, isHead.braces, isInner.braces]
    rfl
  · rw [List.append_cons, excess_append, excess_append, isHead.parens counted,
      isInner.parens counted]
    rfl

/-- The end of a declaration with a balanced body is the line of the brace that closes the body,
whatever follows; it is not found if it lies beyond the lines that are looked at. -/
theorem findEndFrom?_of_balanced_body (lexis : Lexis) (maxLines : Int)
    {lines below : List (List Char)} {start : Int} (from' : linesFrom? lines start = some below)
    {head inner rest : List (Nat × Char)} {opening closing : Nat}
    (text : liveText lexis .code 0 below =
      head ++ (opening, '{') :: inner ++ (closing, '}') :: rest)
    (isHead : IsHead countParens (head.map Prod.snd))
    (isInner : IsInner countParens (inner.map Prod.snd)) :
    findEndFrom? lexis countParens maxLines lines start =
      some (if closing < maxLines then some (start + closing) else none) := by
  have found : firstClose countParens [] (liveText lexis .code 0 below) = some closing := by
    rw [text, List.append_assoc, firstClose_append (fun _ shorter => isHead.open shorter)]
    rw [List.cons_append, firstClose, if_neg (by simp), List.nil_append,
      firstClose_append fun _ shorter => by
        rw [List.append_assoc]
        exact isInner.open isHead.braces shorter]
    rw [firstClose, if_pos ⟨rfl, by simpa using isInner.closesAll isHead⟩]
  rw [findEndFrom?_eq lexis countParens maxLines from', found]
  by_cases near : closing < maxLines
  · rw [if_pos near, Option.filter_some_pos (by simp; omega), Option.map_some]
  · rw [if_neg near, Option.filter_some_neg (by simp; omega), Option.map_none]

/-- A default value has braces, and the body has a nested block and a brace in a literal. -/
theorem findEndFrom?_behind_default_values :
    findEndFrom? {} true 100
      ["f(o = \x7b\x7d".toList, ") \x7b".toList, " g(\x7b \"\x7d\" \x7d)".toList,
        "\x7d \x7d".toList] 0 = some (some 3) := by
  let head : List (Nat × Char) := "f(o = \x7b\x7d".toList.map (0, ·) ++ ") ".toList.map (1, ·)
  let inner : List (Nat × Char) := " g(\x7b  \x7d)".toList.map (2, ·)
  have text : liveText {} .code 0 ["f(o = \x7b\x7d".toList, ") \x7b".toList,
      " g(\x7b \"\x7d\" \x7d)".toList, "\x7d \x7d".toList] =
        head ++ (1, '{') :: inner ++ (3, '}') :: " \x7d".toList.map (3, ·) := by
    decide
  have deep : ∀ front ∈ (head.map Prod.snd).inits, front ++ ['}'] <+: head.map Prod.snd →
      0 < excess '(' ')' front := by
    decide
  have nested : ∀ front ∈ (inner.map Prod.snd).inits, 0 ≤ excess '{' '}' front := by
    decide
  exact findEndFrom?_of_balanced_body {} 100 rfl text
    ⟨by decide, by decide, fun front shorter =>
      deep front ((List.mem_inits ..).2 ((List.prefix_append ..).trans shorter)) shorter⟩
    ⟨by decide, fun front shorter => nested front ((List.mem_inits ..).2 shorter), by decide⟩

end CodeSearch.Boundary
