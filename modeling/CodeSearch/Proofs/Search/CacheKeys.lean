import CodeSearch.Proofs.Numeral.Shortest
import CodeSearch.Proofs.Path.Place
import CodeSearch.Proofs.Search.Queries

/-! # Keys of cached answers

A key lists the query and the options with a bar between every two, and types with commas between
them. It is read back from its end, so a bar in the query does no harm; one in a type does, and so
does a comma. As long as no type has either, and the empty file type is not the only one, searches
with one key are ranked alike.
-/

namespace CodeSearch

/-! ## Numbers in keys -/

namespace Number

private theorem toList_toString (n : Int) : (toString n).toList =
    (if decide (n < 0) then ['-'] else []) ++ Numeral.digits n.natAbs := by
  cases n with
  | ofNat n =>
    change (Nat.repr n).toList = _
    rw [Nat.toList_repr]
    rfl
  | negSucc n =>
    have negative : Int.negSucc n < 0 := Int.negSucc_lt_zero n
    change ("-" ++ Nat.repr (n + 1)).toList = _
    rw [String.toList_append, Nat.toList_repr, if_pos (decide_eq_true negative)]
    rfl

private theorem mem_toString {n : Int} {c : Char} (member : c ∈ (toString n).toList) :
    c = '-' ∨ c.isDigit = true := by
  rw [toList_toString] at member
  rcases List.mem_append.mp member with inSign | inDigits
  · split at inSign
    · exact .inl (List.mem_singleton.mp inSign)
    · cases inSign
  · exact .inr (Numeral.areDigits_digits _ c inDigits)

private theorem toString_injective {m n : Int} (same : toString m = toString n) : m = n := by
  have chars := congrArg String.toList same
  have first : ∀ n, ∃ c rest, Numeral.digits n = c :: rest ∧ c ≠ '-' := by
    intro n
    obtain ⟨c, rest, shape⟩ := List.exists_cons_of_ne_nil (@Nat.toDigits_ne_nil n 10)
    change Numeral.digits n = c :: rest at shape
    refine ⟨c, rest, shape, ?_⟩
    rintro rfl
    exact absurd (Numeral.areDigits_digits n '-' (shape ▸ List.mem_cons_self)) (by decide)
  obtain ⟨c, rest, shape, notSign⟩ := first m.natAbs
  obtain ⟨d, rest', shape', notSign'⟩ := first n.natAbs
  rw [toList_toString, toList_toString, shape, shape'] at chars
  obtain ⟨sign, rfl, rfl⟩ := Numeral.sign_append_injective notSign notSign' chars
  have size : m.natAbs = n.natAbs := by
    rw [← Numeral.written_digits m.natAbs, shape, ← shape', Numeral.written_digits]
  rw [decide_eq_decide] at sign
  omega

/-- Different numbers are written differently, and a double never as a whole number. -/
theorem text_injective {a b : Number Float} (same : a.text = b.text) : a = b := by
  have apart : ∀ (n : Int) (x : Float), toString n ≠ Numeral.shortest x := by
    intro n x equal
    obtain ⟨c, member, notDigit, notSign⟩ := Numeral.exists_mem_shortest x
    rcases mem_toString (equal ▸ member) with sign | digit
    · exact notSign sign
    · rw [notDigit] at digit
      cases digit
  cases a with
  | whole m =>
    cases b with
    | whole n => exact congrArg whole (toString_injective same)
    | real y => exact (apart m y same).elim
  | real x =>
    cases b with
    | whole n => exact (apart n x same.symm).elim
    | real y => exact congrArg real (Numeral.shortest_injective same)

private theorem mem_text {a : Number Float} {c : Char} (member : c ∈ a.text.toList) :
    c.isDigit = true ∨ Numeral.isMark c = true ∨ c ∈ ['n', 'a', 'i', 'f'] := by
  cases a with
  | whole n =>
    rcases mem_toString member with rfl | digit
    · exact .inr (.inl rfl)
    · exact .inl digit
  | real x => exact Numeral.mem_shortest member

private theorem notMem_text (a : Number Float) : '|' ∉ a.text.toList ∧ 'N' ∉ a.text.toList := by
  refine ⟨fun member => ?_, fun member => ?_⟩
  · exact absurd (mem_text member) (by decide)
  · exact absurd (mem_text member) (by decide)

end Number

/-! ## Reading a key from its end -/

namespace SearchOptions

private theorem toList_join (mark : Char) (texts : List String) :
    (String.intercalate (String.singleton mark) texts).toList =
      Text.joinWith [mark] (texts.map String.toList) := by
  induction texts with
  | nil => simp [Text.joinWith]
  | cons text rest ih =>
    cases rest with
    | nil => simp [Text.joinWith]
    | cons next more =>
      rw [String.intercalate_cons_cons, String.toList_append, String.toList_append, ih,
        String.toList_singleton]
      rfl

variable {options options' : SearchOptions Float} {query query' : String}

/-- No type has a comma or a bar, and if there is one file type, it is not empty. -/
structure Separable (options : SearchOptions Float) : Prop where
  fileTypes : ∀ text ∈ options.allowedTypes, ',' ∉ text.toList ∧ '|' ∉ text.toList
  boostTypes : ∀ text ∈ options.boostedTypes, ',' ∉ text.toList ∧ '|' ∉ text.toList
  notBlank : options.allowedTypes ≠ [""]

-- None are read as an empty one.
private def readBack (texts : List String) : List String := if texts = [] then [""] else texts

private theorem readBack_of_join {texts texts' : List String}
    (free : ∀ text ∈ texts, ',' ∉ text.toList) (free' : ∀ text ∈ texts', ',' ∉ text.toList)
    (same : String.intercalate "," texts = String.intercalate "," texts') :
    readBack texts = readBack texts' := by
  have split : ∀ texts : List String, (∀ text ∈ texts, ',' ∉ text.toList) →
      (readBack texts).map String.toList =
        Text.splitAt (· == ',') (String.intercalate "," texts).toList := by
    intro texts free
    rw [show "," = String.singleton ',' from rfl, toList_join, readBack]
    split
    · next none => rw [none]; rfl
    · next some =>
      refine (Text.splitAt_joinWith ',' _ (by simpa using some) ?_).symm
      intro piece member
      obtain ⟨text, inTexts, rfl⟩ := List.mem_map.mp member
      exact free text inTexts
  have pieces : (readBack texts).map String.toList = (readBack texts').map String.toList := by
    rw [split texts free, split texts' free', same]
  exact List.map_injective_iff.mpr (fun _ _ => String.toList_injective) pieces

private theorem bar_notMem_join {texts : List String} (free : ∀ text ∈ texts, '|' ∉ text.toList) :
    '|' ∉ (String.intercalate "," texts).toList := by
  rw [show "," = String.singleton ',' from rfl, toList_join]
  induction texts with
  | nil => exact List.not_mem_nil
  | cons text rest ih =>
    have here := free text List.mem_cons_self
    have later := ih fun other member => free other (List.mem_cons_of_mem text member)
    by_cases last : rest.map String.toList = []
    · rw [List.map_cons, last]
      exact here
    · rw [List.map_cons, Text.joinWith_cons _ _ _ last]
      simpa using ⟨here, later⟩

private theorem optional_injective {β : Type} {write : β → String}
    (injective : ∀ {a b}, write a = write b → a = b) (given : ∀ a, 'N' ∉ (write a).toList)
    {first second : Option β}
    (same : (first.map write).getD absentText = (second.map write).getD absentText) :
    first = second := by
  have absent : ∀ a, write a ≠ absentText := by
    intro a equal
    refine given a ?_
    rw [equal]
    decide
  cases first with
  | none =>
    cases second with
    | none => rfl
    | some b => exact absurd same.symm (absent b)
  | some a =>
    cases second with
    | none => exact absurd same (absent a)
    | some b => exact congrArg some (injective same)

private theorem bar_notMem_optional {β : Type} {write : β → String}
    (given : ∀ a, '|' ∉ (write a).toList) (value : Option β) :
    '|' ∉ ((value.map write).getD absentText).toList := by
  cases value with
  | none =>
    change '|' ∉ absentText.toList
    decide
  | some a => exact given a

private theorem toList_cacheKey (options : SearchOptions Float) (query : String) :
    (options.cacheKey query).toList =
      (((((normalizeQuery query).toList ++ '|' ::
        ((options.limit.map toString).getD absentText).toList) ++ '|' ::
        ((options.minScore.map Number.text).getD absentText).toList) ++ '|' ::
        (String.intercalate "," options.allowedTypes).toList) ++ '|' ::
        (String.intercalate "," options.boostedTypes).toList) := by
  rw [cacheKey, show "|" = String.singleton '|' from rfl, toList_join]
  simp [Text.joinWith]

/-- What searches with one key have in common. -/
structure Alike (query query' : String) (options options' : SearchOptions Float) : Prop where
  query : normalizeQuery query = normalizeQuery query'
  limit : options.limit = options'.limit
  minScore : options.minScore = options'.minScore
  fileTypes : options.allowedTypes = options'.allowedTypes
  boostTypes : readBack options.boostedTypes = readBack options'.boostedTypes

/-- A key of separable options is read back. -/
theorem alike_of_cacheKey (separable : options.Separable) (separable' : options'.Separable)
    (same : options.cacheKey query = options'.cacheKey query') :
    Alike query query' options options' := by
  have limitBar : ∀ limit : Option Int, '|' ∉ ((limit.map toString).getD absentText).toList :=
    bar_notMem_optional fun n => (Number.notMem_text (.whole n)).1
  have scoreBar : ∀ score : Option (Number Float),
      '|' ∉ ((score.map Number.text).getD absentText).toList :=
    bar_notMem_optional fun a => (Number.notMem_text a).1
  have fileBar := bar_notMem_join fun text member => (separable.fileTypes text member).2
  have fileBar' := bar_notMem_join fun text member => (separable'.fileTypes text member).2
  have boostBar := bar_notMem_join fun text member => (separable.boostTypes text member).2
  have boostBar' := bar_notMem_join fun text member => (separable'.boostTypes text member).2
  have chars := congrArg String.toList same
  rw [toList_cacheKey, toList_cacheKey] at chars
  -- the fields are cut off one after another, the last one first
  obtain ⟨chars, boosts⟩ := Text.append_mark_injective boostBar boostBar' chars
  obtain ⟨chars, files⟩ := Text.append_mark_injective fileBar fileBar' chars
  obtain ⟨chars, score⟩ := Text.append_mark_injective (scoreBar _) (scoreBar _) chars
  obtain ⟨chars, limit⟩ := Text.append_mark_injective (limitBar _) (limitBar _) chars
  rw [String.toList_inj] at chars limit score files boosts
  have filesBack := readBack_of_join (fun text member => (separable.fileTypes text member).1)
    (fun text member => (separable'.fileTypes text member).1) files
  exact
    { query := chars
      limit := optional_injective (fun equal => Number.whole.inj (Number.text_injective equal))
        (fun n => (Number.notMem_text (.whole n)).2) limit
      minScore := optional_injective Number.text_injective (fun a => (Number.notMem_text a).2) score
      fileTypes := by
        have notBlank := separable.notBlank
        have notBlank' := separable'.notBlank
        unfold readBack at filesBack
        split at filesBack <;> split at filesBack
        · simp [*]
        · exact absurd filesBack.symm notBlank'
        · exact absurd filesBack notBlank
        · exact filesBack
      boostTypes := readBack_of_join (fun text member => (separable.boostTypes text member).1)
        (fun text member => (separable'.boostTypes text member).1) boosts }

private theorem contains_readBack (texts : List String) (kind : ChunkKind) :
    (readBack texts).contains kind.name = texts.contains kind.name := by
  unfold readBack
  split
  · next none =>
    rw [none]
    cases kind <;> decide
  · rfl

end SearchOptions

/-! ## Rankings -/

section Ranking

variable {α : Type} [Scalar α] {settings : Settings α} {embedder : Embedder α}
  {query query' : String} {options options' : SearchOptions α}

/-- What a ranking depends on. -/
theorem rank_congr (vector : embedder.embedText query = embedder.embedText query')
    (keywords : Query.keywords query.toList = Query.keywords query'.toList)
    (limit : options.limit = options'.limit) (minScore : options.minScore = options'.minScore)
    (fileTypes : options.allowedTypes = options'.allowedTypes)
    (boostTypes : ∀ kind : ChunkKind,
      options.boostedTypes.contains kind.name = options'.boostedTypes.contains kind.name)
    (corpus : List (Embedding α)) :
    rank settings embedder query options corpus = rank settings embedder query' options' corpus := by
  have hits : Ranking.hit? (.of embedder query options) =
      Ranking.hit? (.of embedder query' options') := by
    funext minScore embedding
    have kind : ∀ boost, Ranking.kindBoost (.of embedder query options) embedding.chunk boost =
        Ranking.kindBoost (.of embedder query' options') embedding.chunk boost := by
      intro boost
      change (if options.boostedTypes.contains _ = true then _ else _) = _
      rw [boostTypes]
      rfl
    have mentions : Ranking.mentions (Ranking.Wish.of embedder query options).keywords =
        Ranking.mentions (Ranking.Wish.of embedder query' options').keywords :=
      congrArg Ranking.mentions keywords
    have raised : Ranking.rawScore (.of embedder query options) embedding =
        Ranking.rawScore (.of embedder query' options') embedding := by
      rw [Ranking.rawScore, Ranking.boost, Ranking.commentBoost, Ranking.nameBoost, mentions, kind]
      exact congrArg (cosine · embedding.vector * _) vector
    have allowed : Ranking.isAllowed (.of embedder query options) embedding.chunk =
        Ranking.isAllowed (.of embedder query' options') embedding.chunk := by
      simp only [Ranking.isAllowed, Ranking.Wish.of, fileTypes]
    rw [Ranking.hit?, Ranking.hit?, raised, allowed]
  rw [rank, rank, hits, limit, minScore]

end Ranking

/-- Searches with one key are ranked alike, if their options are separable. -/
theorem SearchOptions.Separable.rank_eq {query query' : String}
    {options options' : SearchOptions Float} (separable : options.Separable) (separable' : options'.Separable)
    (same : options.cacheKey query = options'.cacheKey query') (settings : Settings Float)
    (dimensions : Nat) (limit : Int) (corpus : List (Embedding Float)) :
    rank settings (.hashing dimensions limit) query options corpus =
      rank settings (.hashing dimensions limit) query' options' corpus := by
  have alike := alike_of_cacheKey separable separable' same
  refine rank_congr (hashedText_of_normalizeQuery alike.query dimensions limit)
    (keywords_of_normalizeQuery alike.query) alike.limit alike.minScore alike.fileTypes ?_ corpus
  intro kind
  rw [← contains_readBack options.boostedTypes, alike.boostTypes, contains_readBack]

end CodeSearch
