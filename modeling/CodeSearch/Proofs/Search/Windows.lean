import CodeSearch.Proofs.Search.Best
import CodeSearch.Search.Context

/-! # Windows

What is shown of a file with several hits are the lines around the best of them. They are taken from
the file as it is, by the line numbers that the chunks had when they were made. Lines that the file
no longer has are left out, and nothing else is.
-/

namespace CodeSearch

variable {α : Type} [Scalar α]

/-! ## The first members in falling order -/

section Top

variable {β : Type} (key : β → α) (members : List β)

/-- A place precedes another if its key is not below, and if it comes first where the keys are equal.
-/
def ComesBefore (first second : Fin members.length) : Prop :=
  key (members.get second) ≤ key (members.get first) ∧
    (key (members.get first) ≤ key (members.get second) → first < second)

/-- The places of the members with the greatest keys: they come in falling order, are as many as the
count lets through, and precede all others. -/
structure IsTop (count : ℕ) (places : List (Fin members.length)) : Prop where
  once : places.Nodup
  falling : places.Pairwise (ComesBefore key members)
  count : places.length = min count members.length
  leftOut : ∀ place, place ∉ places → ∀ other ∈ places, ComesBefore key members other place

variable {key members} [OrderedScalar α]

/-- The first members in falling order are the top ones. -/
theorem exists_isTop (defined : KeysDefined key members) (count : ℕ) : ∃ places,
    IsTop key members count places ∧ (byFalling key members).take count = places.map members.get := by
  let ranked := byFalling (key ∘ members.get) (List.finRange members.length)
  have perm : ranked.Perm (List.finRange members.length) := byFalling_perm _ _
  have defined' : KeysDefined (key ∘ members.get) (List.finRange members.length) :=
    fun place _ => defined _ (List.get_mem members place)
  have falls : ranked.Pairwise (ComesBefore key members) :=
    pairwise_byFalling defined' (List.pairwise_lt_finRange members.length)
  have once : ranked.Nodup := perm.nodup_iff.mpr (List.nodup_finRange members.length)
  have same : byFalling key members = ranked.map members.get := by
    have all := List.map_get_finRange members
    have listed : KeysDefined key ((List.finRange members.length).map members.get) := by
      rwa [all]
    have sorted := map_byFalling members.get listed
    rw [all] at sorted
    exact sorted.symm
  have parts := falls
  rw [← List.take_append_drop count ranked] at parts
  refine ⟨ranked.take count, ⟨once.sublist (List.take_sublist _ _),
    falls.sublist (List.take_sublist _ _), ?_, ?_⟩, by rw [same, List.map_take]⟩
  · rw [List.length_take, perm.length_eq, List.length_finRange]
  · intro place missing other listed
    have known : place ∈ ranked := perm.mem_iff.mpr (List.mem_finRange place)
    rw [← List.take_append_drop count ranked] at known
    have dropped := (List.mem_append.mp known).resolve_left missing
    exact (List.pairwise_append.mp parts).2.2 other listed place dropped

end Top

namespace Context

/-! ## Lines by their numbers -/

/-- The lines with the numbers from the first to the last, counted from one. -/
def numberedLines (first last : ℤ) (lines : List (List Char)) : List (List Char) :=
  ((lines.zipIdx 1).filter fun line => decide (first ≤ line.2 ∧ (line.2 : ℤ) ≤ last)).map Prod.fst

private theorem filter_zipIdx (low high : ℕ) (lines : List (List Char)) (start : ℕ) :
    ((lines.zipIdx start).filter fun line => decide (low ≤ line.2 ∧ line.2 < high)).map Prod.fst =
      (lines.drop (low - start)).take (high - max low start) := by
  induction lines generalizing start with
  | nil => simp
  | cons line rest ih =>
    rw [List.zipIdx_cons, List.filter_cons]
    rcases Nat.lt_or_ge start low with before | reached
    · -- the line stands before the stretch
      have drop : low - start = (low - (start + 1)) + 1 := by omega
      have same : max low start = max low (start + 1) := by omega
      rw [if_neg (by simp; omega), ih, drop, List.drop_succ_cons, same]
    · have drop : low - start = 0 := by omega
      have drop' : low - (start + 1) = 0 := by omega
      have high' : max low start = start := by omega
      have high'' : max low (start + 1) = start + 1 := by omega
      rw [drop, List.drop_zero, high']
      by_cases inside : start < high
      · have take : high - start = (high - (start + 1)) + 1 := by omega
        rw [if_pos (by simp; omega), List.map_cons, ih, drop', List.drop_zero, high'', take,
          List.take_succ_cons]
      · have take : high - start = 0 := by omega
        have take' : high - (start + 1) = 0 := by omega
        rw [if_neg (by simp; omega), ih, high'', take, take', List.take_zero, List.take_zero]

/-- Lines whose numbers begin with one or more are a stretch of the lines. -/
theorem numberedLines_eq_slice {first last : ℤ} (inside : 1 ≤ first) (nonneg : 0 ≤ last)
    (lines : List (List Char)) :
    numberedLines first last lines = Text.slice (first - 1) last lines := by
  obtain ⟨low, rfl⟩ := Int.eq_ofNat_of_zero_le (show 0 ≤ first by omega)
  obtain ⟨high, rfl⟩ := Int.eq_ofNat_of_zero_le nonneg
  have whole : (low : ℤ) - 1 = ((low - 1 : ℕ) : ℤ) := by omega
  have stretch := filter_zipIdx low (high + 1) lines 1
  rw [whole, Text.slice_natCast, numberedLines]
  have take : high + 1 - max low 1 = high - (low - 1) := by omega
  rw [take] at stretch
  rw [← stretch]
  refine congrArg (List.map Prod.fst) (List.filter_congr fun line _ => ?_)
  rw [decide_eq_decide]
  omega

/-- A line is among those with certain numbers if its own is one of them. -/
theorem mem_numberedLines {first last : ℤ} {lines : List (List Char)} {line : List Char} :
    line ∈ numberedLines first last lines ↔
      ∃ number : ℕ, 1 ≤ number ∧ first ≤ number ∧ (number : ℤ) ≤ last ∧
        lines[number - 1]? = some line := by
  rw [numberedLines, List.mem_map]
  constructor
  · rintro ⟨⟨line, number⟩, listed, rfl⟩
    obtain ⟨listed, within⟩ := List.mem_filter.mp listed
    obtain ⟨after, there⟩ := List.mk_mem_zipIdx_iff_le_and_getElem?_sub.mp listed
    obtain ⟨low, high⟩ := of_decide_eq_true within
    exact ⟨number, after, low, high, there⟩
  · rintro ⟨number, after, low, high, there⟩
    refine ⟨(line, number), List.mem_filter.mpr ⟨?_, decide_eq_true ⟨low, high⟩⟩, rfl⟩
    exact List.mk_mem_zipIdx_iff_le_and_getElem?_sub.mpr ⟨after, there⟩

/-- The lines that a window shows of a file as it is. -/
def windowLines (lines : List (List Char)) (window : ℤ) (hit : Hit α) : List (List Char) :=
  numberedLines (max 1 (hit.chunk.startLine - window))
    (min lines.length (hit.chunk.endLine + window)) lines

omit [Scalar α] in
theorem windowText_eq {lines : List (List Char)} {window : ℤ} {hit : Hit α} (nonneg : 0 ≤ window)
    (start : 1 ≤ hit.chunk.startLine) (stop : hit.chunk.startLine ≤ hit.chunk.endLine) :
    windowText lines window hit = Text.joinWith ['\n'] (windowLines lines window hit) := by
  have first : max 0 (hit.chunk.startLine - 1 - window) =
      max 1 (hit.chunk.startLine - window) - 1 := by omega
  rw [windowLines, numberedLines_eq_slice (le_max_left _ _) (by omega), ← first]
  rfl

omit [Scalar α] in
/-- A window shows every line of the hit and of the window on each side that the file still has. -/
theorem mem_windowLines {lines : List (List Char)} {window : ℤ} {hit : Hit α} {number : ℕ}
    {line : List Char} (there : lines[number - 1]? = some line) (positive : 1 ≤ number)
    (low : hit.chunk.startLine - window ≤ number) (high : number ≤ hit.chunk.endLine + window) :
    line ∈ windowLines lines window hit := by
  obtain ⟨inside, -⟩ := List.getElem?_eq_some_iff.mp there
  exact mem_numberedLines.mpr ⟨number, positive, by omega, by omega, there⟩

/-! ## Blocks of lines -/

/-- A text is the beginning of a content, or of blocks of its consecutive lines with separators
between them. -/
def IsCutOf (maxLength : ℤ) (content text : String) : Prop :=
  text = cut maxLength content ∨ ∃ blocks : List (List (List Char)),
    (∀ block ∈ blocks, block <:+: Text.lines content.toList) ∧
      text = cut maxLength (String.ofList
        (Text.joinWith separator.toList (blocks.map (Text.joinWith ['\n']))))

/-- What is shown of a content is cut from it, whatever lines the hits name. -/
theorem isCutOf_extractContext (content : String) (hits : List (Hit α))
    (topChunks window maxLength : ℤ) :
    IsCutOf maxLength content (extractContext content hits topChunks window maxLength) := by
  by_cases few : hits.length ≤ 1
  · rw [extractContext, if_pos few]
    exact .inl rfl
  · let best := Text.upTo topChunks (byFalling Hit.score hits)
    let lines := Text.lines content.toList
    refine .inr ⟨best.map fun hit => Text.slice (max 0 (hit.chunk.startLine - 1 - window))
      (min (lines.length : ℤ) (hit.chunk.endLine + window)) lines, ?_, ?_⟩
    · intro block listed
      obtain ⟨hit, -, rfl⟩ := List.mem_map.mp listed
      exact (List.take_prefix _ _).isInfix.trans (List.drop_suffix _ _).isInfix
    · rw [extractContext, if_neg few, cut, String.toList_ofList, List.map_map]
      rfl

theorem length_extractContext_le (content : String) (hits : List (Hit α)) (topChunks window : ℤ)
    {maxLength : ℤ} (nonneg : 0 ≤ maxLength) :
    ((extractContext content hits topChunks window maxLength).length : ℤ) ≤ maxLength := by
  obtain ⟨length, rfl⟩ := Int.eq_ofNat_of_zero_le nonneg
  have short : ∀ text : List Char, (String.ofList (Text.upTo length text)).length ≤ length := by
    intro text
    rw [String.length_ofList, Text.upTo_natCast]
    exact List.length_take_le _ _
  unfold extractContext
  split
  · exact Int.ofNat_le.mpr (short _)
  · exact Int.ofNat_le.mpr (short _)

end Context

/-- Context windows are exact: for every content, also if it has fewer or more lines than when the
chunks were made, and every list of two or more hits with defined scores, what is shown are the first
characters of the parts for the best hits, with separators between them. Each part consists of the
lines with numbers in the hit and in the window on both sides, so that all such lines that the file
still has are in it. -/
theorem windows_are_exact [OrderedScalar α] (content : String) (hits : List (Hit α))
    (topChunks window maxLength : ℤ) (top : 0 ≤ topChunks) (wide : 0 ≤ window)
    (long : 0 ≤ maxLength) (several : 2 ≤ hits.length)
    (lines : ∀ hit ∈ hits, 1 ≤ hit.chunk.startLine ∧ hit.chunk.startLine ≤ hit.chunk.endLine)
    (defined : KeysDefined Hit.score hits) :
    ∃ places, IsTop Hit.score hits topChunks.toNat places ∧
      extractContext content hits topChunks window maxLength =
        String.ofList ((Text.joinWith Context.separator.toList (places.map fun place =>
          Text.joinWith ['\n'] (Context.windowLines (Text.lines content.toList) window
            (hits.get place)))).take maxLength.toNat) ∧
      ∀ hit ∈ hits, ∀ (number : ℕ) (line : List Char),
        1 ≤ number → (Text.lines content.toList)[number - 1]? = some line →
        hit.chunk.startLine - window ≤ number → number ≤ hit.chunk.endLine + window →
        line ∈ Context.windowLines (Text.lines content.toList) window hit := by
  obtain ⟨count, rfl⟩ := Int.eq_ofNat_of_zero_le top
  obtain ⟨length, rfl⟩ := Int.eq_ofNat_of_zero_le long
  obtain ⟨places, isTop, best⟩ := exists_isTop defined count
  refine ⟨places, isTop, ?_, fun hit _ number line positive there low high =>
    Context.mem_windowLines there positive low high⟩
  have parts : places.map (fun place => Context.windowText (Text.lines content.toList) window
      (hits.get place)) = places.map fun place => Text.joinWith ['\n']
        (Context.windowLines (Text.lines content.toList) window (hits.get place)) := by
    refine List.map_congr_left fun place _ => ?_
    obtain ⟨start, stop⟩ := lines _ (List.get_mem hits place)
    exact Context.windowText_eq wide start stop
  rw [extractContext, if_neg (by omega)]
  change String.ofList (Text.upTo length (Text.joinWith Context.separator.toList
    ((Text.upTo count (byFalling Hit.score hits)).map _))) = _
  rw [Text.upTo_natCast, Text.upTo_natCast, best, List.map_map, ← parts]
  rfl

namespace Context

/-- A hit on one line of a file. -/
def hitOnLine (line : ℤ) (score : Float) : Hit Float :=
  ⟨{ Ranking.lineOf "a.ts" .block with startLine := line, endLine := line }, score, .ofScore score⟩

/-- Hits on the first line, the last one and one that the file has lost. -/
def scatteredHits : List (Hit Float) := [hitOnLine 1 0.5, hitOnLine 4 0.9, hitOnLine 9 0.7]

/-- The windows of the two best hits: one at the end of the file and one behind it. -/
theorem windows_of_scattered_hits :
    2 ≤ scatteredHits.length ∧
      (∀ hit ∈ scatteredHits,
        1 ≤ hit.chunk.startLine ∧ hit.chunk.startLine ≤ hit.chunk.endLine) ∧
      KeysDefined Hit.score scatteredHits ∧
      ∃ places, IsTop Hit.score scatteredHits 2 places ∧
        extractContext "a\nb\nc\nd" scatteredHits 2 1 2500 =
          String.ofList ((Text.joinWith separator.toList (places.map fun place =>
            Text.joinWith ['\n'] (windowLines (Text.lines "a\nb\nc\nd".toList) 1
              (scatteredHits.get place)))).take 2500) := by
  have lines : ∀ hit ∈ scatteredHits,
      1 ≤ hit.chunk.startLine ∧ hit.chunk.startLine ≤ hit.chunk.endLine := by decide
  have defined : KeysDefined Hit.score scatteredHits := by
    unfold KeysDefined
    decide +kernel
  obtain ⟨places, isTop, shown, -⟩ := windows_are_exact "a\nb\nc\nd" scatteredHits 2 1 2500
    (by decide) (by decide) (by decide) (by decide) lines defined
  exact ⟨by decide, lines, defined, places, isTop, shown⟩

/-- Hits on three lines, of which the second has an undefined score. -/
def hitsBesideUndefined : List (Hit Float) :=
  [hitOnLine 1 0.5, hitOnLine 2 (0.0 / 0.0), hitOnLine 4 0.9]

/-- Beside an undefined score the first line is shown for the best hit, although the hit on the last
line is better than the one on the first. -/
theorem undefined_score_hides_best_window :
    (hitOnLine 1 0.5).score < (hitOnLine 4 0.9).score ∧
      extractContext "a\nb\nc\nd" hitsBesideUndefined 1 0 2500 = "a" := by
  decide +kernel

end Context

end CodeSearch
