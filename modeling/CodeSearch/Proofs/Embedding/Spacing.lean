import CodeSearch.Embedding.Basic
import CodeSearch.Proofs.Embedding.Lexemes
import Mathlib.Logic.Relation

/-! # Spacing

Code is spaced in many ways. A change of spacing keeps the lexemes, and bringing a text into its
normal form is nothing but a series of such changes. So two texts share a normal form if and only if
they differ in spacing alone, and then they are embedded alike.
-/

namespace CodeSearch

namespace Token

open Text

/-- One change of spacing: other blanks for a run of blanks, at an end of the text, in front of an
operator or behind one. Only a run between words has to stay one. -/
inductive Respaced : List Char → List Char → Prop where
  | run {blanks blanks' : List Char} (first second : List Char) : AreBlanks blanks →
    AreBlanks blanks' → blanks ≠ [] → blanks' ≠ [] →
    Respaced (first ++ blanks ++ second) (first ++ blanks' ++ second)
  | front {blanks blanks' : List Char} (text : List Char) : AreBlanks blanks → AreBlanks blanks' →
    Respaced (blanks ++ text) (blanks' ++ text)
  | back {blanks blanks' : List Char} (text : List Char) : AreBlanks blanks → AreBlanks blanks' →
    Respaced (text ++ blanks) (text ++ blanks')
  | ahead {blanks blanks' : List Char} {c : Char} (first second : List Char) :
    isOperator c = true → AreBlanks blanks → AreBlanks blanks' →
    Respaced (first ++ blanks ++ c :: second) (first ++ blanks' ++ c :: second)
  | behind {blanks blanks' : List Char} {c : Char} (first second : List Char) :
    isOperator c = true → AreBlanks blanks → AreBlanks blanks' →
    Respaced (first ++ c :: (blanks ++ second)) (first ++ c :: (blanks' ++ second))

/-- The texts differ in spacing only. -/
abbrev DifferInSpacing : List Char → List Char → Prop := Relation.ReflTransGen Respaced

variable {text other first second blanks : List Char}

theorem Respaced.symm (respaced : Respaced text other) : Respaced other text := by
  cases respaced with
  | run first second areBlanks areBlanks' some some' =>
    exact .run first second areBlanks' areBlanks some' some
  | front text areBlanks areBlanks' => exact .front text areBlanks' areBlanks
  | back text areBlanks areBlanks' => exact .back text areBlanks' areBlanks
  | ahead first second operator areBlanks areBlanks' =>
    exact .ahead first second operator areBlanks' areBlanks
  | behind first second operator areBlanks areBlanks' =>
    exact .behind first second operator areBlanks' areBlanks

theorem DifferInSpacing.symm (differ : DifferInSpacing text other) :
    DifferInSpacing other text := by
  induction differ with
  | refl => exact .refl
  | tail _ respaced ih => exact .head respaced.symm ih

/-! ## Lexemes -/

theorem lexemes_blanks_append (areBlanks : AreBlanks blanks) :
    lexemes (blanks ++ text) = lexemes text := by
  induction blanks with
  | nil => rfl
  | cons c rest ih =>
    obtain ⟨here, later⟩ := List.forall_mem_cons.mp areBlanks
    rw [List.cons_append, lexemes_cons_blank here, ih later]

theorem lexemes_append_blanks_append (areBlanks : AreBlanks blanks) (some : blanks ≠ []) :
    lexemes (first ++ blanks ++ second) = lexemes first ++ lexemes second := by
  obtain ⟨c, rest, rfl⟩ := List.exists_cons_of_ne_nil some
  obtain ⟨here, later⟩ := List.forall_mem_cons.mp areBlanks
  rw [List.append_assoc, List.cons_append, lexemes_append_blank here, lexemes_blanks_append later]

theorem lexemes_append_blanks (areBlanks : AreBlanks blanks) :
    lexemes (text ++ blanks) = lexemes text := by
  by_cases none : blanks = []
  · rw [none, List.append_nil]
  · have parted := @lexemes_append_blanks_append text [] blanks areBlanks none
    rwa [List.append_nil, show lexemes [] = [] from rfl, List.append_nil] at parted

theorem Respaced.lexemes_eq (respaced : Respaced text other) : lexemes text = lexemes other := by
  cases respaced with
  | run first second areBlanks areBlanks' some some' =>
    rw [lexemes_append_blanks_append areBlanks some, lexemes_append_blanks_append areBlanks' some']
  | front text areBlanks areBlanks' =>
    rw [lexemes_blanks_append areBlanks, lexemes_blanks_append areBlanks']
  | back text areBlanks areBlanks' =>
    rw [lexemes_append_blanks areBlanks, lexemes_append_blanks areBlanks']
  | ahead first second operator areBlanks areBlanks' =>
    rw [lexemes_append_operator operator, lexemes_append_operator operator,
      lexemes_append_blanks areBlanks, lexemes_append_blanks areBlanks']
  | behind first second operator areBlanks areBlanks' =>
    rw [lexemes_append_operator operator, lexemes_append_operator operator,
      lexemes_blanks_append areBlanks, lexemes_blanks_append areBlanks']

theorem DifferInSpacing.lexemes_eq (differ : DifferInSpacing text other) :
    lexemes text = lexemes other := by
  induction differ with
  | refl => rfl
  | tail _ respaced ih => exact ih.trans respaced.lexemes_eq

/-! ## The normal form -/

private theorem differInSpacing_collapseBlanks (first text : List Char) :
    DifferInSpacing (first ++ text) (first ++ collapseBlanks text) := by
  induction text generalizing first with
  | nil => exact .refl
  | cons c rest ih =>
    unfold collapseBlanks
    split
    · next blank =>
      have run (second) : Respaced (first ++ [c] ++ second) (first ++ [' '] ++ second) :=
        .run first second (by simpa [AreBlanks] using blank) (by decide) (by simp) (by simp)
      split
      · exact .single (by simpa using run [])
      · next d more =>
        split
        · next blank' =>
          have shorter : Respaced (first ++ [c, d] ++ more) (first ++ [d] ++ more) :=
            .run first more (by simpa [AreBlanks] using ⟨blank, blank'⟩)
              (by simpa [AreBlanks] using blank') (by simp) (by simp)
          exact .head (by simpa using shorter) (ih first)
        · exact .head (by simpa using run (d :: more)) (by simpa using ih (first ++ [' ']))
    · simpa using ih (first ++ [c])

private theorem differInSpacing_padOperators (behind : Bool) (first text : List Char)
    (spaced : behind = true → ∃ front, first = front ++ [' ']) :
    DifferInSpacing (first ++ text) (first ++ padOperators behind text) := by
  -- where a space has just been written, one more does not matter
  induction text generalizing first behind with
  | nil => exact .refl
  | cons c rest ih =>
    unfold padOperators
    split
    · next isSpace =>
      subst isSpace
      split
      · next drops =>
        have dropped : Respaced (first ++ ' ' :: rest) (first ++ rest) := by
          cases behind with
          | true =>
            obtain ⟨front, rfl⟩ := spaced rfl
            have run : Respaced (front ++ [' ', ' '] ++ rest) (front ++ [' '] ++ rest) :=
              .run front rest (by decide) (by decide) (by simp) (by simp)
            simpa using run
          | false =>
            cases rest with
            | nil => cases drops
            | cons d more =>
              have ahead : Respaced (first ++ [' '] ++ d :: more) (first ++ [] ++ d :: more) :=
                .ahead first more (by simpa using drops) (by decide) (by decide)
              simpa using ahead
        exact .head dropped (ih false first (by simp))
      · simpa using ih false (first ++ [' ']) (by simp)
    · split
      · next operator =>
        have ahead : Respaced (first ++ [] ++ c :: rest) (first ++ [' '] ++ c :: rest) :=
          .ahead first rest operator (by decide) (by decide)
        have behind : Respaced (first ++ [' '] ++ c :: ([] ++ rest))
            (first ++ [' '] ++ c :: ([' '] ++ rest)) :=
          .behind (first ++ [' ']) rest operator (by decide) (by decide)
        have later := ih true (first ++ [' ', c, ' ']) (fun _ => ⟨first ++ [' ', c], by simp⟩)
        exact .head (by simpa using ahead) (.head (by simpa using behind) (by simpa using later))
      · simpa using ih false (first ++ [c]) (by simp)

/-- A text is brought into its normal form by changes of spacing. -/
theorem differInSpacing_normalizeChars (text : List Char) :
    DifferInSpacing text (normalizeChars text) := by
  obtain ⟨front, back, areBlanks, areBlanks', shape⟩ :=
    exists_trim (padOperators false (collapseBlanks text))
  have collapsed : DifferInSpacing text (collapseBlanks text) :=
    differInSpacing_collapseBlanks [] text
  have padded : DifferInSpacing (collapseBlanks text) (padOperators false (collapseBlanks text)) :=
    differInSpacing_padOperators false [] (collapseBlanks text) (by simp)
  have closed :
      Respaced (padOperators false (collapseBlanks text)) (front ++ normalizeChars text) := by
    have bare :=
      Respaced.back (front ++ normalizeChars text) areBlanks' (show AreBlanks [] by decide)
    rwa [List.append_nil, normalizeChars, ← shape] at bare
  have opened : Respaced (front ++ normalizeChars text) (normalizeChars text) :=
    .front (normalizeChars text) areBlanks (show AreBlanks [] by decide)
  exact collapsed.trans (padded.trans (.head closed (.single opened)))

/-- Two texts have one normal form if and only if they differ in spacing only. -/
theorem normalizeChars_eq_iff :
    normalizeChars text = normalizeChars other ↔ DifferInSpacing text other := by
  constructor
  · intro same
    have back := (differInSpacing_normalizeChars other).symm
    rw [← same] at back
    exact (differInSpacing_normalizeChars text).trans back
  · intro differ
    rw [normalizeChars_eq_layOut, normalizeChars_eq_layOut, differ.lexemes_eq]

end Token

theorem normalizeCode_eq_iff (code other : String) :
    normalizeCode code = normalizeCode other ↔ Token.DifferInSpacing code.toList other.toList := by
  rw [normalizeCode, normalizeCode, String.ofList_inj, Token.normalizeChars_eq_iff]

variable {α : Type} [Scalar α]

/-- Spacing never matters: the normal form of code is a normal form of itself, two texts share it if
and only if they differ in spacing only, and then they are embedded alike, be it as a query or as
the content of a chunk. -/
theorem spacing_never_matters (dimensions : Nat) (limit : Int) (code : String) :
    let embedder : Embedder α := .hashing dimensions limit
    normalizeCode (normalizeCode code) = normalizeCode code ∧
      ∀ other : String,
        (normalizeCode code = normalizeCode other ↔
          Token.DifferInSpacing code.toList other.toList) ∧
        (Token.DifferInSpacing code.toList other.toList →
          embedder.embedText code = embedder.embedText other ∧
            ∀ chunk : Chunk, embedder.embedChunk { chunk with content := code } =
              embedder.embedChunk { chunk with content := other }) := by
  intro embedder
  constructor
  · have spaced := Token.differInSpacing_normalizeChars code.toList
    rw [normalizeCode_eq_iff, normalizeCode, String.toList_ofList]
    exact spaced.symm
  · intro other
    refine ⟨normalizeCode_eq_iff code other, fun differ => ?_⟩
    have same : normalizeCode code = normalizeCode other :=
      (normalizeCode_eq_iff code other).mpr differ
    constructor
    · simp only [embedder, Embedder.hashing, Embedder.hashedText, same]
    · intro chunk
      simp only [embedder, Embedder.hashing, Embedder.hashedChunk, Embedder.chunkText, same]

/-- A function in two ways of spacing. -/
theorem spacing_of_short_function :
    Token.DifferInSpacing "f(a,b)\x7b\n  x=1;\n\x7d".toList
      "\u3000f ( a ,b )\t\x7b x\n= 1; \x7d\n".toList ∧
      normalizeCode "f(a,b)\x7b\n  x=1;\n\x7d" = "f ( a , b )  \x7b x = 1 ;  \x7d" ∧
      ((.hashing 256 1500 : Embedder Float).embedText "f(a,b)\x7b\n  x=1;\n\x7d" =
        (.hashing 256 1500 : Embedder Float).embedText "\u3000f ( a ,b )\t\x7b x\n= 1; \x7d\n") := by
  obtain ⟨-, others⟩ := spacing_never_matters (α := Float) 256 1500 "f(a,b)\x7b\n  x=1;\n\x7d"
  obtain ⟨shares, alike⟩ := others "\u3000f ( a ,b )\t\x7b x\n= 1; \x7d\n"
  have differ := shares.mp (by decide +kernel)
  exact ⟨differ, by decide +kernel, (alike differ).1⟩

end CodeSearch
