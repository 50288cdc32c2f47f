import Mathlib.Analysis.Real.Sqrt
import CodeSearch.Proofs.Embedding.Passes
import CodeSearch.Proofs.Embedding.TokenSums

/-! # Joined texts

No pass over a text without comments looks past a space. Two texts that are joined by one therefore
have the tokens of both, and the sums of those are the average of the sums of both.
-/

namespace CodeSearch

namespace Token

open Text

variable {text first second : List Char} {c : Char}

theorem lowerWords_append_blank (blank : isBlank c = true) :
    lowerWords (first ++ c :: second) = lowerWords first ++ lowerWords second :=
  (congrArg words (onlyWords_append_blank blank)).trans (words_append_blank blank)

/-- An identifier ends in front of a space. -/
theorem identifiersFrom_append_space (current first second : List Char) :
    identifiersFrom current (first ++ ' ' :: second) =
      identifiersFrom current first ++ identifiersFrom [] second := by
  induction first generalizing current with
  | nil =>
    have apart : isAsciiAlphanumeric ' ' = false := by decide
    have starts : startsIdentifier ' ' second = false := by
      simp [startsIdentifier, isAsciiLower, isAsciiUpper]
    simp only [List.nil_append, identifiersFrom, apart, starts]
    by_cases none : current.isEmpty <;> simp [none]
  | cons d rest ih =>
    have starts : startsIdentifier d (rest ++ ' ' :: second) = startsIdentifier d rest := by
      cases rest with
      | nil => simp [startsIdentifier, isAsciiLower]
      | cons e more => rfl
    simp only [List.cons_append, identifiersFrom, starts, ih]
    split
    · rfl
    · split <;> rfl

/-- The first two passes find in joined texts what they find in both. -/
theorem plainTokens_append_space (first second : List Char) :
    (plainTokens (first ++ ' ' :: second)).Perm (plainTokens first ++ plainTokens second) := by
  have words := @lowerWords_append_blank first second ' ' rfl
  have identifiers := identifiersFrom_append_space [] first second
  rw [plainTokens, plainTokens, plainTokens, words, identifiers, List.flatMap_append,
    ← List.filter_append]
  refine List.Perm.filter _ ?_
  simp only [List.append_assoc]
  exact (List.perm_append_comm_assoc _ _ _).append_left _

theorem tokens_of_hasNoComment (free : HasNoComment text) : tokens text = plainTokens text := by
  rw [tokens_eq, commentWords, commentsFrom_of_hasNoComment free, List.flatMap_nil, List.append_nil]

theorem tokens_append_space (free : HasNoComment first) (free' : HasNoComment second) :
    (tokens (first ++ ' ' :: second)).Perm (tokens first ++ tokens second) := by
  rw [tokens_of_hasNoComment free, tokens_of_hasNoComment free',
    tokens_of_hasNoComment (free.append_blank free' rfl)]
  exact plainTokens_append_space first second

end Token

/-- The average of two numbers, weighted by how many each of them stands for. -/
noncomputable def weightedAverage (count count' : ℕ) (x y : ℝ) : ℝ :=
  (count * x + count' * y) / (count + count')

theorem tokenSums_append (dimensions : ℕ) (tokens others : List String) :
    tokenSums dimensions (tokens ++ others) =
      List.zipWith (weightedAverage tokens.length others.length) (tokenSums dimensions tokens)
        (tokenSums dimensions others) := by
  simp only [tokenSums_eq_meanPull, List.zipWith_map, List.zipWith_self]
  exact List.map_congr_left fun _ _ => meanPull_append

/-- Two texts without comments that are joined by a space have the tokens of both, and the sums of
these tokens are the average of the sums of both texts. -/
theorem joined_texts_have_tokens_of_both (text other : String)
    (free : Token.HasNoComment text.toList) (free' : Token.HasNoComment other.toList) :
    (tokenize (text ++ " " ++ other)).Perm (tokenize text ++ tokenize other) ∧
      ∀ dimensions, tokenSums dimensions (tokenize (text ++ " " ++ other)) =
        List.zipWith (weightedAverage (tokenize text).length (tokenize other).length)
          (tokenSums dimensions (tokenize text)) (tokenSums dimensions (tokenize other)) := by
  have shape : (text ++ " " ++ other).toList = text.toList ++ ' ' :: other.toList := by simp
  have both : (tokenize (text ++ " " ++ other)).Perm (tokenize text ++ tokenize other) := by
    rw [tokenize, tokenize, tokenize, shape, ← List.map_append]
    exact (Token.tokens_append_space free free').map String.ofList
  exact ⟨both, fun dimensions => by rw [tokenSums_perm both, tokenSums_append]⟩

/-- A slash and a star that are joined by a space open no comment, and a sigma in front of the space
ends its word. -/
theorem slash_and_star_are_joined :
    Token.HasNoComment "parseFile ΟΔΟΣ /".toList ∧ Token.HasNoComment "*ΑΣ runAll".toList ∧
      (tokenize ("parseFile ΟΔΟΣ /" ++ " " ++ "*ΑΣ runAll")).Perm
        (tokenize "parseFile ΟΔΟΣ /" ++ tokenize "*ΑΣ runAll") ∧
      tokenize "parseFile ΟΔΟΣ /" = ["parsefile", "οδος", "parse", "file"] ∧
      tokenSums 256 (tokenize ("parseFile ΟΔΟΣ /" ++ " " ++ "*ΑΣ runAll")) =
        List.zipWith (weightedAverage 4 4) (tokenSums 256 (tokenize "parseFile ΟΔΟΣ /"))
          (tokenSums 256 (tokenize "*ΑΣ runAll")) := by
  have free : Token.HasNoComment "parseFile ΟΔΟΣ /".toList := by decide +kernel
  have free' : Token.HasNoComment "*ΑΣ runAll".toList := by decide +kernel
  have found : tokenize "parseFile ΟΔΟΣ /" = ["parsefile", "οδος", "parse", "file"] := by
    decide +kernel
  have found' : (tokenize "*ΑΣ runAll").length = 4 := by decide +kernel
  obtain ⟨both, average⟩ := joined_texts_have_tokens_of_both _ _ free free'
  have counted := average 256
  rw [found', congrArg List.length found] at counted
  exact ⟨free, free', both, found, counted⟩

end CodeSearch
