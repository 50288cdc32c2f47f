import CodeSearch.Proofs.Search.Narrowing
import CodeSearch.Search.Context
import Mathlib.Data.List.Perm.Basic

/-! # Grouping by files

Every hit comes into the group of its file, in the order of the hits, and no group holds anything
else. Groups are sorted by their best scores, those with equal ones in the order in which their files
first appear. If the hits themselves come by falling scores, as a ranking returns them, neither the
sort of the groups nor a sort within a group changes anything.
-/

namespace CodeSearch

/-! ## Files in the order of their first appearance -/

section FirstAppearance

variable {γ : Type} [BEq γ] [LawfulBEq γ]

private theorem idxOf_lt_of_filter (keep : γ → Bool) {first second : γ} (kept : keep first = true)
    (kept' : keep second = true) {members : List γ}
    (less : (members.filter keep).idxOf first < (members.filter keep).idxOf second) :
    members.idxOf first < members.idxOf second := by
  induction members with
  | nil => exact absurd less (by simp)
  | cons member rest ih =>
    by_cases keeps : keep member = true
    · rw [List.filter_cons_of_pos keeps] at less
      simp only [List.idxOf_cons] at less ⊢
      cases here : member == first <;> cases there : member == second <;>
        simp only [here, there, cond_true, cond_false] at less ⊢ <;> omega
    · rw [List.filter_cons_of_neg keeps] at less
      have other : (member == first) = false := by
        rw [beq_eq_false_iff_ne]
        rintro rfl
        exact keeps kept
      have other' : (member == second) = false := by
        rw [beq_eq_false_iff_ne]
        rintro rfl
        exact keeps kept'
      simp only [List.idxOf_cons, other, other', cond_false]
      exact Nat.succ_lt_succ (ih less)

/-- Without repetitions, members come in the order of their first appearance. The induction is on the
length, since the members that are the first one again are taken out of the rest. -/
theorem pairwise_eraseDups (members : List γ) :
    members.eraseDups.Pairwise fun first second => members.idxOf first < members.idxOf second := by
  match members with
  | [] => exact .nil
  | member :: rest =>
    have others : ∀ other ∈ (rest.filter fun other => !other == member).eraseDups,
        (!other == member) = true :=
      fun other listed => (List.mem_filter.mp (List.mem_eraseDups.mp listed)).2
    have places : ∀ other, (!other == member) = true →
        (member :: rest).idxOf other = rest.idxOf other + 1 := by
      intro other differs
      have differs' : ¬ member = other := by
        rintro rfl
        simp at differs
      rw [List.idxOf_cons, beq_eq_false_iff_ne.mpr differs', cond_false]
    rw [List.eraseDups_cons]
    refine List.pairwise_cons.mpr ⟨fun other listed => ?_, ?_⟩
    · rw [places other (others other listed), List.idxOf_cons_self]
      exact Nat.succ_pos _
    · refine (pairwise_eraseDups (rest.filter fun other => !other == member)).imp_of_mem ?_
      intro first second listed listed' less
      rw [places first (others first listed), places second (others second listed')]
      exact Nat.succ_lt_succ
        (idxOf_lt_of_filter (fun other => !other == member) (others first listed)
          (others second listed') less)
termination_by members.length
decreasing_by exact Nat.lt_succ_of_le (List.length_filter_le _ _)

theorem nodup_eraseDups (members : List γ) : members.eraseDups.Nodup := by
  refine (pairwise_eraseDups members).imp fun less => ?_
  rintro rfl
  exact Nat.lt_irrefl _ less

/-- Members that are divided by their keys are all there. -/
theorem flatMap_filter_perm {β : Type} (key : β → γ) {keys : List γ} (once : keys.Nodup)
    {members : List β} (known : ∀ member ∈ members, key member ∈ keys) :
    (keys.flatMap fun k => members.filter fun member => key member == k).Perm members := by
  induction keys generalizing members with
  | nil =>
    have none : members = [] := List.eq_nil_iff_forall_not_mem.mpr fun member listed =>
      List.not_mem_nil (known member listed)
    rw [none]
    exact .nil
  | cons first rest ih =>
    obtain ⟨fresh, once'⟩ := List.nodup_cons.mp once
    let others := members.filter fun member => !(key member == first)
    have inRest : ∀ member ∈ others, key member ∈ rest := by
      intro member listed
      obtain ⟨listed, differs⟩ := List.mem_filter.mp listed
      rcases List.mem_cons.mp (known member listed) with same | behind
      · simp [same] at differs
      · exact behind
    have apart : (rest.flatMap fun k => members.filter fun member => key member == k) =
        rest.flatMap fun k => others.filter fun member => key member == k := by
      refine List.flatMap_congr fun k listed => ?_
      rw [List.filter_filter]
      refine List.filter_congr fun member _ => ?_
      cases same : key member == k with
      | false => rfl
      | true =>
        have differs : (key member == first) = false := by
          rw [beq_eq_false_iff_ne]
          rintro rfl
          exact fresh (eq_of_beq same ▸ listed)
        simp [differs]
    rw [List.flatMap_cons, apart]
    exact ((ih once' inRest).append_left _).trans
      (List.filter_append_perm (fun member => key member == first) members)

end FirstAppearance

variable {α : Type} [Scalar α]

/-- What falls already is not changed by sorting. -/
theorem byFalling_of_pairwise [OrderedScalar α] {β : Type} {key : β → α} {members : List β}
    (falls : members.Pairwise fun first second => key second ≤ key first) :
    byFalling key members = members := by
  match members with
  | [] => exact List.perm_nil.mp (byFalling_perm key [])
  | [member] => exact List.perm_singleton.mp (byFalling_perm key [member])
  | first :: second :: rest =>
    obtain ⟨below, -⟩ := List.pairwise_cons.mp falls
    have defined : KeysDefined key (first :: second :: rest) := by
      intro member listed
      rcases List.mem_cons.mp listed with rfl | behind
      · exact (OrderedScalar.defined (below second List.mem_cons_self)).2
      · exact (OrderedScalar.defined (below member behind)).1
    rw [byFalling_eq_mergeSort key _ defined]
    apply List.mergeSort_of_pairwise
    refine falls.imp fun {first second} le => ?_
    simpa using fun less => OrderedScalar.not_le_of_lt less le

/-- The scores of the hits do not rise. -/
abbrev Falls (hits : List (Hit α)) : Prop :=
  hits.Pairwise fun first second => second.score ≤ first.score

/-- The answer to a search comes by falling scores. -/
theorem rank_falls [OrderedScalar α] {settings : Settings α} {embedder : Embedder α}
    {query : String} {options : SearchOptions α} {corpus : List (Embedding α)}
    (defined : Ranking.ScoresDefined (.of embedder query options) corpus) :
    Falls (rank settings embedder query options corpus) := by
  have scores : KeysDefined Hit.score (Ranking.hits (.of embedder query options)
      (options.leastScoreIn settings) corpus) := Ranking.scores_of_hits defined
  have falls := pairwise_byFalling scores
    (List.pairwise_of_forall (R := fun _ _ => True) fun _ _ => trivial)
  exact (falls.imp fun order => order.1).sublist (List.take_sublist _ _)

/-- Hits that fall already are returned as they come. -/
theorem rank_of_falls [OrderedScalar α] {settings : Settings α} {embedder : Embedder α}
    {query : String} {options : SearchOptions α} {corpus : List (Embedding α)} {limit : ℕ}
    (given : options.limitIn settings = limit) (falls : Falls (Ranking.hits
      (.of embedder query options) (options.leastScoreIn settings) corpus)) :
    rank settings embedder query options corpus = (Ranking.hits (.of embedder query options)
      (options.leastScoreIn settings) corpus).take limit := by
  rw [rank_natCast given, byFalling_of_pairwise falls]

namespace Context

/-! ## The groups -/

/-- The place of the first hit of a file. -/
def firstPlace (hits : List (Hit α)) (path : String) : ℕ :=
  hits.findIdx fun hit => hit.chunk.filePath == path

/-- Groups that lose and invent nothing: each file has one, it holds the hits of that file in their
order, all hits are in the groups, and the score of a group is one of its scores, none of which is
greater. -/
structure IsGrouping (hits : List (Hit α)) (groups : List (FileHits α)) : Prop where
  once : (groups.map FileHits.filePath).Nodup
  own : ∀ group ∈ groups, group.hits = hits.filter fun hit => hit.chunk.filePath == group.filePath
  all : (groups.flatMap FileHits.hits).Perm hits
  attained : ∀ group ∈ groups, ∃ hit ∈ group.hits, hit.score = group.maxScore
  greatest : ∀ group ∈ groups, ∀ hit ∈ group.hits, ¬ group.maxScore < hit.score

/-- A group precedes another if its best score is not below, and if its file appears first where the
best scores are equal. -/
def Precedes (hits : List (Hit α)) (first second : FileHits α) : Prop :=
  second.maxScore ≤ first.maxScore ∧ (first.maxScore ≤ second.maxScore →
    firstPlace hits first.filePath < firstPlace hits second.filePath)

variable {hits : List (Hit α)} {group : FileHits α} {path : String}

/-- A group of a file is made of its hits, of which there is one at least. -/
theorem of_fileHits?_eq_some (made : fileHits? hits path = some group) :
    group.filePath = path ∧ group.hits = (hits.filter fun hit => hit.chunk.filePath == path) ∧
      ∃ first rest, group.hits = first :: rest ∧ group.maxScore = greatest first.score rest := by
  simp only [fileHits?] at made
  split at made
  · cases made
  · next first rest found =>
    cases made
    exact ⟨rfl, found.symm, first, rest, rfl, rfl⟩

/-- The files of the hits have groups. -/
theorem fileHits?_isSome (known : path ∈ hits.map fun hit => hit.chunk.filePath) :
    ∃ group, fileHits? hits path = some group := by
  obtain ⟨hit, listed, same⟩ := List.mem_map.mp known
  have kept : hit ∈ hits.filter fun hit => hit.chunk.filePath == path :=
    List.mem_filter.mpr ⟨listed, beq_iff_eq.mpr same⟩
  simp only [fileHits?]
  split
  · next none => exact absurd (none ▸ kept) List.not_mem_nil
  · exact ⟨_, rfl⟩

theorem mem_groups_iff : group ∈ groups hits ↔ fileHits? hits group.filePath = some group ∧
    group.filePath ∈ hits.map fun hit => hit.chunk.filePath := by
  rw [groups, List.mem_filterMap]
  constructor
  · rintro ⟨path, listed, made⟩
    obtain ⟨rfl, -⟩ := of_fileHits?_eq_some made
    exact ⟨made, List.mem_eraseDups.mp listed⟩
  · rintro ⟨made, listed⟩
    exact ⟨group.filePath, List.mem_eraseDups.mpr listed, made⟩

/-- Groups are made in the order in which their files first appear. -/
theorem groups_inOrder (hits : List (Hit α)) : (groups hits).Pairwise fun first second =>
    firstPlace hits first.filePath < firstPlace hits second.filePath := by
  refine List.Pairwise.filterMap _ ?_ (pairwise_eraseDups _)
  intro path path' less first made second made'
  obtain ⟨rfl, -⟩ := of_fileHits?_eq_some made
  obtain ⟨rfl, -⟩ := of_fileHits?_eq_some made'
  simp only [List.idxOf, List.findIdx_map] at less
  exact less

private theorem flatMap_groups (hits : List (Hit α)) : (groups hits).flatMap FileHits.hits =
    (hits.map fun hit => hit.chunk.filePath).eraseDups.flatMap fun path =>
      hits.filter fun hit => hit.chunk.filePath == path := by
  have parts : ∀ paths : List String,
      (∀ path ∈ paths, path ∈ hits.map fun hit => hit.chunk.filePath) →
      (paths.filterMap (fileHits? hits)).flatMap FileHits.hits =
        paths.flatMap fun path => hits.filter fun hit => hit.chunk.filePath == path := by
    intro paths known
    induction paths with
    | nil => rfl
    | cons path rest ih =>
      obtain ⟨first, others⟩ := List.forall_mem_cons.mp known
      obtain ⟨group, made⟩ := fileHits?_isSome first
      rw [List.filterMap_cons_some made, List.flatMap_cons, List.flatMap_cons, ih others,
        (of_fileHits?_eq_some made).2.1]
  exact parts _ fun path listed => List.mem_eraseDups.mp listed

section Ordered

variable [OrderedScalar α]

omit [OrderedScalar α] in
theorem greatest_cons (score : α) (hit : Hit α) (rest : List (Hit α)) :
    greatest score (hit :: rest) =
      greatest (if score < hit.score then hit.score else score) rest := rfl

omit [OrderedScalar α] in
/-- The greatest score is the given one or that of a hit. -/
theorem greatest_eq_or_mem (score : α) (hits : List (Hit α)) :
    greatest score hits = score ∨ ∃ hit ∈ hits, hit.score = greatest score hits := by
  induction hits generalizing score with
  | nil => exact .inl rfl
  | cons hit rest ih =>
    rw [greatest_cons]
    rcases ih (if score < hit.score then hit.score else score) with same | ⟨other, listed, same⟩
    · rw [same]
      split
      · exact .inr ⟨hit, List.mem_cons_self, rfl⟩
      · exact .inl rfl
    · exact .inr ⟨other, List.mem_cons_of_mem _ listed, same⟩

/-- What is above the greatest score is above the given one. -/
theorem lt_of_greatest_lt {score bound : α} {hits : List (Hit α)}
    (less : greatest score hits < bound) : score < bound := by
  induction hits generalizing score with
  | nil => exact less
  | cons hit rest ih =>
    rw [greatest_cons] at less
    split at less
    · next rises => exact OrderedScalar.lt_of_lt_of_le rises (OrderedScalar.le_of_lt (ih less))
    · exact ih less

/-- No score is greater than the greatest. -/
theorem not_greatest_lt (score : α) {hits : List (Hit α)} {hit : Hit α} (listed : hit ∈ hits) :
    ¬ greatest score hits < hit.score := by
  induction hits generalizing score with
  | nil => exact absurd listed List.not_mem_nil
  | cons first rest ih =>
    rw [greatest_cons]
    rcases List.mem_cons.mp listed with rfl | behind
    · intro less
      have above := lt_of_greatest_lt less
      split at above
      · exact OrderedScalar.not_le_of_lt above (OrderedScalar.le_of_lt above)
      · next notAbove => exact notAbove above
    · exact ih _ behind

/-- Where scores fall, the first is the greatest. -/
theorem greatest_of_falls {score : α} {hits : List (Hit α)}
    (falls : ∀ hit ∈ hits, hit.score ≤ score) : greatest score hits = score := by
  induction hits with
  | nil => rfl
  | cons hit rest ih =>
    obtain ⟨first, others⟩ := List.forall_mem_cons.mp falls
    have notLess : ¬ score < hit.score := fun less => OrderedScalar.not_le_of_lt less first
    rw [greatest_cons, if_neg notLess, ih others]

/-- The score of a group is the greatest of its hits. -/
theorem maxScore_of_fileHits? (made : fileHits? hits path = some group) :
    (∃ hit ∈ group.hits, hit.score = group.maxScore) ∧
      ∀ hit ∈ group.hits, ¬ group.maxScore < hit.score := by
  obtain ⟨-, -, first, rest, listed, best⟩ := of_fileHits?_eq_some made
  rw [listed, best]
  constructor
  · rcases greatest_eq_or_mem first.score rest with same | ⟨hit, behind, same⟩
    · exact ⟨first, List.mem_cons_self, same.symm⟩
    · exact ⟨hit, List.mem_cons_of_mem _ behind, same⟩
  · refine List.forall_mem_cons.mpr ⟨fun less => ?_, fun hit behind => not_greatest_lt _ behind⟩
    have above := lt_of_greatest_lt less
    exact OrderedScalar.not_le_of_lt above (OrderedScalar.le_of_lt above)

/-- Before they are sorted, the groups lose and invent nothing. -/
theorem isGrouping_groups (hits : List (Hit α)) : IsGrouping hits (groups hits) := by
  constructor
  case once =>
    refine List.pairwise_map.mpr ((groups_inOrder hits).imp fun less same => ?_)
    rw [same] at less
    exact Nat.lt_irrefl _ less
  case own =>
    intro group listed
    exact (of_fileHits?_eq_some (mem_groups_iff.mp listed).1).2.1
  case all =>
    rw [flatMap_groups]
    refine flatMap_filter_perm (fun hit : Hit α => hit.chunk.filePath) (nodup_eraseDups _) ?_
    exact fun hit listed => List.mem_eraseDups.mpr (List.mem_map_of_mem listed)
  case attained => exact fun group listed => (maxScore_of_fileHits? (mem_groups_iff.mp listed).1).1
  case greatest => exact fun group listed => (maxScore_of_fileHits? (mem_groups_iff.mp listed).1).2

omit [OrderedScalar α] in
/-- Groups may come in any order. -/
theorem IsGrouping.perm {groups groups' : List (FileHits α)} (grouping : IsGrouping hits groups)
    (perm : groups'.Perm groups) : IsGrouping hits groups' where
  once := (perm.map FileHits.filePath).nodup_iff.mpr grouping.once
  own group listed := grouping.own group (perm.mem_iff.mp listed)
  all := (perm.flatMap_right FileHits.hits).trans grouping.all
  attained group listed := grouping.attained group (perm.mem_iff.mp listed)
  greatest group listed := grouping.greatest group (perm.mem_iff.mp listed)

/-- Groups of defined scores have defined scores. -/
theorem scores_of_groups (defined : KeysDefined Hit.score hits) :
    KeysDefined FileHits.maxScore (groups hits) := by
  intro group listed
  have grouping := isGrouping_groups hits
  obtain ⟨hit, inGroup, best⟩ := grouping.attained group listed
  rw [grouping.own group listed] at inGroup
  rw [← best]
  exact defined hit (List.mem_filter.mp inGroup).1

/-! ## Hits by falling scores -/

/-- What is shown of a file if the hits are taken as they come. -/
def extractInOrder (content : String) (hits : List (Hit α)) (topChunks window maxLength : ℤ) :
    String :=
  if hits.length ≤ 1 then cut maxLength content
  else String.ofList (Text.upTo maxLength (Text.joinWith separator.toList
    ((Text.upTo topChunks hits).map (windowText (Text.lines content.toList) window))))

/-- The first hit of a group has its best score. -/
theorem head_of_falls (falls : Falls hits)
    (listed : group ∈ groups hits) :
    ∃ hit, hits[firstPlace hits group.filePath]? = some hit ∧ group.hits.head? = some hit ∧
      hit.score = group.maxScore := by
  obtain ⟨-, own, first, rest, made, best⟩ := of_fileHits?_eq_some (mem_groups_iff.mp listed).1
  have inGroup : Falls (first :: rest) := by
    rw [← made, own]
    exact falls.sublist List.filter_sublist
  refine ⟨first, ?_, by rw [made, List.head?_cons], ?_⟩
  · rw [firstPlace, ← List.find?_eq_getElem?_findIdx, ← List.head?_filter, ← own, made,
      List.head?_cons]
  · rw [best, greatest_of_falls (List.pairwise_cons.mp inGroup).1]

/-- The groups of falling hits fall. -/
theorem groups_fall (falls : Falls hits) :
    (groups hits).Pairwise fun first second => second.maxScore ≤ first.maxScore := by
  refine (groups_inOrder hits).imp_of_mem fun {first second} listed listed' less => ?_
  obtain ⟨hit, place, -, best⟩ := head_of_falls falls listed
  obtain ⟨hit', place', -, best'⟩ := head_of_falls falls listed'
  obtain ⟨inside, rfl⟩ := List.getElem?_eq_some_iff.mp place
  obtain ⟨inside', rfl⟩ := List.getElem?_eq_some_iff.mp place'
  rw [← best, ← best']
  exact List.pairwise_iff_getElem.mp falls _ _ inside inside' less

/-- The groups of falling hits are kept as they come. -/
theorem groupByFile_of_falls (falls : Falls hits) (limit : ℕ) :
    groupByFile hits limit = (groups hits).take limit := by
  rw [groupByFile, byFalling_of_pairwise (groups_fall falls), Text.upTo_natCast]

/-- Of falling hits the windows of the first ones are shown. -/
theorem extractContext_of_falls (falls : Falls hits) (content : String)
    (topChunks window maxLength : ℤ) : extractContext content hits topChunks window maxLength =
      extractInOrder content hits topChunks window maxLength := by
  rw [extractContext, byFalling_of_pairwise falls, extractInOrder]

end Ordered

end Context

/-- Grouping by file loses and invents nothing, for all hits and limits: the first groups are kept of
those that divide the hits by their files, each with its best score. If all scores are defined, groups
with better scores come first, and groups with equal ones in the order in which their files first
appear. If the hits come by falling scores, as a search returns them, all groups come in that order,
the first hit of each has its best score, and a further sort of a group changes nothing. -/
theorem grouping_keeps_all_hits [OrderedScalar α] (hits : List (Hit α)) :
    let groups := byFalling FileHits.maxScore (Context.groups hits)
    (∀ limit : ℕ, groupByFile hits limit = groups.take limit) ∧
    (∀ limit : ℤ, limit < 0 → groupByFile hits limit = groups.take (limit + groups.length).toNat) ∧
    Context.IsGrouping hits groups ∧
    (KeysDefined Hit.score hits → groups.Pairwise (Context.Precedes hits)) ∧
    (Falls hits →
      (groups.Pairwise fun first second =>
        Context.firstPlace hits first.filePath < Context.firstPlace hits second.filePath) ∧
      ∀ group ∈ groups, group.hits.head?.map Hit.score = some group.maxScore ∧
        byFalling Hit.score group.hits = group.hits) := by
  intro groups
  refine ⟨fun limit => Text.upTo_natCast limit groups, ?_,
    (Context.isGrouping_groups hits).perm (byFalling_perm _ _), ?_, ?_⟩
  · intro limit negative
    change Text.upTo limit groups = _
    rw [Text.upTo, Text.bound, if_pos negative]
  · intro defined
    exact pairwise_byFalling (Context.scores_of_groups defined) (Context.groups_inOrder hits)
  · intro falls
    have same : groups = Context.groups hits := byFalling_of_pairwise (Context.groups_fall falls)
    rw [same]
    refine ⟨Context.groups_inOrder hits, fun group listed => ?_⟩
    obtain ⟨hit, -, head, best⟩ := Context.head_of_falls falls listed
    constructor
    · rw [head, Option.map_some, best]
    · apply byFalling_of_pairwise
      rw [(Context.isGrouping_groups hits).own group listed]
      exact falls.sublist List.filter_sublist

/-! ## Small lists of hits -/

namespace Context

/-- A hit in a file of one line. -/
def hitIn (filePath : String) (score : Float) : Hit Float :=
  ⟨Ranking.lineOf filePath .block, score, .ofScore score⟩

/-- Hits of three files, of which two have the same best score. -/
def interleavedHits : List (Hit Float) :=
  [hitIn "a.ts" 0.9, hitIn "b.ts" 0.7, hitIn "a.ts" 0.7, hitIn "c.ts" 0.7, hitIn "b.ts" 0.2]

theorem grouping_of_interleaved_hits :
    KeysDefined Hit.score interleavedHits ∧ Falls interleavedHits ∧
      groupByFile interleavedHits (-1) = (byFalling FileHits.maxScore
        (groups interleavedHits)).take (-1 + (byFalling FileHits.maxScore
          (groups interleavedHits)).length : ℤ).toNat ∧
      (groupByFile interleavedHits 2).Pairwise (Precedes interleavedHits) ∧
      ∀ group ∈ groupByFile interleavedHits 2,
        group.hits.head?.map Hit.score = some group.maxScore ∧
          byFalling Hit.score group.hits = group.hits := by
  have defined : KeysDefined Hit.score interleavedHits := by
    unfold KeysDefined
    decide +kernel
  have falls : Falls interleavedHits := by decide +kernel
  obtain ⟨kept, fromEnd, -, precede, inOrder⟩ := grouping_keeps_all_hits interleavedHits
  have two : groupByFile interleavedHits 2 = _ := kept 2
  rw [two]
  exact ⟨defined, falls, fromEnd (-1) (by decide), (precede defined).sublist (List.take_sublist _ _),
    fun group listed => (inOrder falls).2 group (List.mem_of_mem_take listed)⟩

/-- Hits of three files, of which the second has an undefined score. -/
def hitsAroundUndefined : List (Hit Float) :=
  [hitIn "a.ts" 0.5, hitIn "n.ts" (0.0 / 0.0), hitIn "b.ts" 0.9]

/-- With an undefined score between them a group comes before a better one. -/
theorem undefined_score_misplaces_group :
    ¬ (groupByFile hitsAroundUndefined 3).Pairwise fun first second =>
      ¬ first.maxScore < second.maxScore := by
  decide +kernel

end Context

end CodeSearch
