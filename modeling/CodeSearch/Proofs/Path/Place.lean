import CodeSearch.Proofs.Path.Suffix
import CodeSearch.Session.Loading

/-! # The shape of absolute paths

The normal form of an absolute path is one slash or two and then components that name something.
Going down from such a place appends components, and the way from a place down to another is the
components that were appended.
-/

namespace CodeSearch

namespace Text

/-- Joining loses nothing where the pieces hold no separator. -/
theorem splitAt_joinWith (mark : Char) (pieces : List (List Char)) (some : pieces ≠ [])
    (clear : ∀ piece ∈ pieces, mark ∉ piece) :
    splitAt (· == mark) (joinWith [mark] pieces) = pieces := by
  induction pieces with
  | nil => exact absurd rfl some
  | cons piece rest ih =>
    have whole : splitAt (· == mark) piece = [piece] := by
      apply splitAt_of_unmarked
      intro c member
      rw [beq_eq_false_iff_ne]
      rintro rfl
      exact clear piece List.mem_cons_self member
    by_cases last : rest = []
    · rw [last]
      exact whole
    · rw [joinWith_cons _ _ _ last, List.append_assoc, List.singleton_append,
        splitAt_append (· == mark) piece _ mark (beq_self_eq_true mark), whole,
        ih last fun other member => clear other (List.mem_cons_of_mem _ member)]
      rfl

theorem joinWith_concat (separator : List Char) (init : List (List Char)) (last : List Char) :
    ∃ front, joinWith separator (init ++ [last]) = front ++ last := by
  by_cases none : init = []
  · exact ⟨[], by simp [none, joinWith]⟩
  · exact ⟨_, joinWith_append separator init [last] none (by simp)⟩

end Text

namespace Path

/-- A component that names something. -/
structure IsStep (component : List Char) : Prop where
  nonempty : component ≠ []
  notHere : component ≠ ['.']
  notUp : component ≠ ['.', '.']
  slashless : '/' ∉ component

/-- The path that starts with a number of slashes and goes on with the given components. -/
def place (slashes : Nat) (parts : List (List Char)) : String :=
  String.ofList (List.replicate slashes '/' ++ Text.joinWith ['/'] parts)

variable {slashes : Nat} {parts : List (List Char)}

private theorem splitAt_slashes (count : Nat) (text : List Char) :
    Text.splitAt (· == '/') (List.replicate count '/' ++ text) =
      List.replicate count [] ++ Text.splitAt (· == '/') text := by
  induction count with
  | zero => rfl
  | succ count ih =>
    rw [List.replicate_succ, List.cons_append, List.replicate_succ, List.cons_append, ← ih]
    simp [Text.splitAt]

theorem components_place (slashes : Nat) (steps : ∀ part ∈ parts, IsStep part) :
    components (place slashes parts) =
      List.replicate slashes [] ++ if parts = [] then [[]] else parts := by
  rw [components, place, String.toList_ofList, splitAt_slashes]
  congr 1
  split
  · next none => rw [none]; rfl
  · next some =>
    exact Text.splitAt_joinWith '/' parts some fun part member => (steps part member).slashless

private theorem foldl_resolveStep (rooted : Bool) (steps : ∀ part ∈ parts, IsStep part)
    (kept : List (List Char)) : parts.foldl (resolveStep rooted) kept = parts.reverse ++ kept := by
  induction parts generalizing kept with
  | nil => rfl
  | cons part rest ih =>
    have step := steps part List.mem_cons_self
    have pushed : resolveStep rooted kept part = part :: kept := by
      simp [resolveStep, step.nonempty, step.notHere, step.notUp]
    rw [List.foldl_cons, pushed, ih fun other member => steps other (List.mem_cons_of_mem _ member)]
    simp

private theorem foldl_resolveStep_empty (rooted : Bool) (count : Nat) (kept : List (List Char)) :
    (List.replicate count []).foldl (resolveStep rooted) kept = kept := by
  induction count with
  | zero => rfl
  | succ count ih => simpa [List.replicate_succ, resolveStep] using ih

theorem resolve_place (rooted : Bool) (slashes : Nat) (steps : ∀ part ∈ parts, IsStep part) :
    resolve rooted (components (place slashes parts)) = parts := by
  rw [components_place slashes steps, resolve, List.foldl_append, foldl_resolveStep_empty]
  split
  · next none => rw [none]; rfl
  · rw [foldl_resolveStep rooted steps]
    simp

private theorem joinWith_ne_slash (steps : ∀ part ∈ parts, IsStep part) (rest : List Char) :
    Text.joinWith ['/'] parts ≠ '/' :: rest := by
  cases parts with
  | nil => simp [Text.joinWith]
  | cons part more =>
    have step := steps part List.mem_cons_self
    cases part with
    | nil => exact absurd rfl step.nonempty
    | cons c part =>
      intro same
      have first : c = '/' := by
        by_cases last : more = []
        · rw [last] at same
          exact (List.cons.inj same).1
        · rw [Text.joinWith_cons _ _ _ last] at same
          exact (List.cons.inj same).1
      exact step.slashless (first ▸ List.mem_cons_self)

theorem rootSlashes_place (few : slashes = 1 ∨ slashes = 2)
    (steps : ∀ part ∈ parts, IsStep part) : rootSlashes (place slashes parts) = slashes := by
  have other := joinWith_ne_slash steps
  unfold rootSlashes
  rw [place, String.toList_ofList]
  generalize Text.joinWith ['/'] parts = text at other
  rcases few with rfl | rfl
  · cases text with
    | nil => rfl
    | cons c rest =>
      have different : c ≠ '/' := fun same => other rest (by rw [same])
      simp [List.replicate, different]
  · cases text with
    | nil => rfl
    | cons c rest =>
      have different : c ≠ '/' := fun same => other rest (by rw [same])
      simp [List.replicate]

/-- A place is in normal form. -/
theorem normalize_place (few : slashes = 1 ∨ slashes = 2) (steps : ∀ part ∈ parts, IsStep part) :
    normalize (place slashes parts) = place slashes parts := by
  have some : slashes ≠ 0 := by omega
  obtain ⟨count, rfl⟩ := Nat.exists_eq_succ_of_ne_zero some
  simp only [normalize, rootSlashes_place few steps, resolve_place _ _ steps]
  rw [if_neg (by simp [List.replicate_succ])]
  rfl

theorem isAbsolute_place (some : slashes ≠ 0) (parts : List (List Char)) :
    isAbsolute (place slashes parts) = true := by
  obtain ⟨count, rfl⟩ := Nat.exists_eq_succ_of_ne_zero some
  rw [isAbsolute, Text.startsWith_iff, place, String.toList_ofList, List.replicate_succ]
  exact ⟨_, rfl⟩

theorem steps_place (few : slashes = 1 ∨ slashes = 2) (steps : ∀ part ∈ parts, IsStep part) :
    Path.steps (place slashes parts) = parts := by
  have some : slashes ≠ 0 := by omega
  unfold Path.steps absolute join
  rw [if_pos (isAbsolute_place some parts), normalize_place few steps,
    components_place slashes steps, List.filter_append]
  have empty : (List.replicate slashes ([] : List Char)).filter (fun part => !part.isEmpty) = [] := by
    simp
  rw [empty, List.nil_append]
  split
  · next none => rw [none]; rfl
  · rw [List.filter_eq_self]
    intro part member
    simpa using (steps part member).nonempty

private theorem isStep_of_mem_resolve {path : String} {part : List Char}
    (member : part ∈ resolve true (components path)) : IsStep part := by
  have slashless : ∀ component ∈ components path, '/' ∉ component := by
    intro component listed inside
    have unmarked := Text.marked_eq_false_of_mem_splitAt (· == '/') _ component listed '/' inside
    exact absurd unmarked (by decide)
  have kept : ∀ (pending before : List (List Char)), (∀ component ∈ pending, '/' ∉ component) →
      (∀ part ∈ before, IsStep part) →
      ∀ part ∈ pending.foldl (resolveStep true) before, IsStep part := by
    intro pending
    induction pending with
    | nil => exact fun before _ steps => steps
    | cons component rest ih =>
      intro before clear steps
      refine ih _ (fun other listed => clear other (List.mem_cons_of_mem _ listed)) ?_
      unfold resolveStep
      split
      · exact steps
      · next notHere =>
        split
        · cases before with
          | nil => exact steps
          | cons last below =>
            have named := (steps last List.mem_cons_self).notUp
            simp only [named, if_false]
            exact fun other listed => steps other (List.mem_cons_of_mem _ listed)
        · next notUp =>
          intro other listed
          rcases List.mem_cons.mp listed with rfl | listed
          · simp only [Bool.or_eq_true, decide_eq_true_eq, not_or] at notHere
            exact ⟨notHere.1, notHere.2, notUp, clear other List.mem_cons_self⟩
          · exact steps other listed
  exact kept _ [] slashless (by simp) part (List.mem_reverse.mp member)

/-- The normal form of an absolute path is a place. -/
theorem normalize_eq_place {path : String} (fromTop : isAbsolute path = true) :
    ∃ slashes parts, (slashes = 1 ∨ slashes = 2) ∧ (∀ part ∈ parts, IsStep part) ∧
      normalize path = place slashes parts := by
  have few : rootSlashes path = 1 ∨ rootSlashes path = 2 := by
    rw [isAbsolute, Text.startsWith_iff] at fromTop
    obtain ⟨rest, text⟩ := fromTop
    unfold rootSlashes
    rw [← text]
    split
    · exact .inl rfl
    · exact .inr rfl
    · exact .inl rfl
    · next none => exact absurd rfl (none rest)
  refine ⟨rootSlashes path, resolve true (components path), few, ?_, ?_⟩
  · exact fun part member => isStep_of_mem_resolve member
  · have some : rootSlashes path ≠ 0 := by omega
    obtain ⟨count, slashes⟩ := Nat.exists_eq_succ_of_ne_zero some
    simp only [normalize, bne_iff_ne.mpr some]
    rw [if_neg (by simp [slashes, List.replicate_succ])]
    rfl

theorem isAbsolute_join {directory : String} (fromTop : isAbsolute directory = true)
    (path : String) : isAbsolute (join directory path) = true := by
  unfold join
  split
  · assumption
  · rw [isAbsolute, Text.startsWith_iff] at fromTop ⊢
    obtain ⟨rest, text⟩ := fromTop
    split
    · exact ⟨rest ++ path.toList, by rw [String.toList_append, ← text]; rfl⟩
    · exact ⟨rest ++ "/".toList ++ path.toList, by
        rw [String.toList_append, String.toList_append, ← text]; rfl⟩

theorem absolute_eq_place (path : String) :
    ∃ slashes parts, (slashes = 1 ∨ slashes = 2) ∧ (∀ part ∈ parts, IsStep part) ∧
      absolute path = place slashes parts :=
  normalize_eq_place (isAbsolute_join rfl path)

/-- A name is not an absolute path. -/
theorem isAbsolute_eq_false {name : String} (named : IsStep name.toList) :
    isAbsolute name = false := by
  rw [Bool.eq_false_iff, ne_eq, isAbsolute, Text.startsWith_iff]
  rintro ⟨rest, text⟩
  exact named.slashless (text ▸ List.mem_cons_self)

/-- Going down to a name appends it. -/
theorem join_place (some : slashes ≠ 0) (steps : ∀ part ∈ parts, IsStep part) {name : String}
    (named : IsStep name.toList) :
    join (place slashes parts) name = place slashes (parts ++ [name.toList]) := by
  obtain ⟨count, rfl⟩ := Nat.exists_eq_succ_of_ne_zero some
  apply String.toList_injective
  rw [join, isAbsolute_eq_false named, if_neg (by simp)]
  rcases List.eq_nil_or_concat parts with rfl | ⟨init, last, rfl⟩
  · rw [if_pos]
    · simp [place, Text.joinWith]
    · simp [place, Text.joinWith, Text.endsWith_iff, List.replicate_succ']
  · rw [List.concat_eq_append] at steps ⊢
    have step := steps last (by simp)
    rw [if_neg]
    · simp only [place, String.toList_append, String.toList_ofList]
      rw [Text.joinWith_append ['/'] (init ++ [last]) [name.toList] (by simp) (by simp)]
      simp [Text.joinWith]
    · rw [Bool.or_eq_true, not_or]
      refine ⟨by simp [place, List.replicate_succ], ?_⟩
      rw [Text.endsWith_iff, place, String.toList_ofList]
      obtain ⟨front, joined⟩ := Text.joinWith_concat ['/'] init last
      rintro ⟨before, text⟩
      rcases List.eq_nil_or_concat last with rfl | ⟨others, c, rfl⟩
      · exact step.nonempty rfl
      · rw [joined] at text
        have ends := congrArg List.getLast? text
        simp only [List.concat_eq_append, ← List.append_assoc, List.getLast?_concat,
          Option.some.injEq] at ends
        exact step.slashless (by simp [← ends])

theorem place_injective {other : Nat} {others : List (List Char)}
    (few : slashes = 1 ∨ slashes = 2) (steps : ∀ part ∈ parts, IsStep part)
    (fewOther : other = 1 ∨ other = 2) (stepsOther : ∀ part ∈ others, IsStep part)
    (same : place slashes parts = place other others) : slashes = other ∧ parts = others := by
  refine ⟨?_, ?_⟩
  · rw [← rootSlashes_place few steps, same, rootSlashes_place fewOther stepsOther]
  · rw [← steps_place few steps, same, steps_place fewOther stepsOther]

theorem dropCommon_append (first rest : List (List Char)) :
    dropCommon first (first ++ rest) = ([], rest) := by
  induction first with
  | nil => cases rest <;> rfl
  | cons part more ih => simpa [dropCommon] using ih

/-- A file is known by the components that lead down to it. -/
theorem relativePath_place (few : slashes = 1 ∨ slashes = 2) {names : List (List Char)}
    (steps : ∀ part ∈ parts ++ names, IsStep part) (some : names ≠ []) :
    Loading.relativePath (place slashes parts) (place slashes (parts ++ names)) =
      String.ofList (Text.joinWith ['/'] names) := by
  have stepsRoot : ∀ part ∈ parts, IsStep part := fun part member =>
    steps part (List.mem_append.mpr (.inl member))
  have filled : (place slashes (parts ++ names)).isEmpty = false := by
    rw [Bool.eq_false_iff, ne_eq, String.isEmpty_iff]
    intro empty
    have text := congrArg String.toList empty
    rw [place, String.toList_ofList] at text
    have none : slashes = 0 := by
      have left := (List.append_eq_nil_iff.mp text).1
      simpa using left
    omega
  have way : names.isEmpty = false := by simpa using some
  rw [Loading.relativePath, relative?, filled]
  simp only [Bool.false_eq_true, if_false]
  rw [steps_place few stepsRoot, steps_place few steps, dropCommon_append]
  simp only [List.map_nil, List.nil_append, way, Bool.false_eq_true, if_false, Option.getD_some]

/-- Two ways down have one text only if they are one way. -/
theorem joinWith_steps_injective {first second : List (List Char)}
    (firstSteps : ∀ part ∈ first, IsStep part) (secondSteps : ∀ part ∈ second, IsStep part)
    (firstSome : first ≠ []) (secondSome : second ≠ [])
    (same : Text.joinWith ['/'] first = Text.joinWith ['/'] second) : first = second := by
  rw [← Text.splitAt_joinWith '/' first firstSome
      fun part member => (firstSteps part member).slashless,
    same, Text.splitAt_joinWith '/' second secondSome
      fun part member => (secondSteps part member).slashless]

/-- The language of a file below a project is told from its name. -/
theorem ofPath?_way {above : List (List Char)} {name : String} (known : isIndexable name = true) :
    Language.ofPath? (String.ofList (Text.joinWith ['/'] (above ++ [name.toList]))) =
      Language.ofPath? name := by
  by_cases none : above = []
  · rw [none, List.nil_append, Text.joinWith, String.ofList_toList]
  · have split : String.ofList (Text.joinWith ['/'] (above ++ [name.toList])) =
        String.ofList (Text.joinWith ['/'] above) ++ "/" ++ name := by
      apply String.toList_injective
      rw [Text.joinWith_append _ _ _ none (by simp)]
      simp [Text.joinWith]
    rw [split]
    exact ofPath?_below _ known

/-- A file below a project is indexed for its name. -/
theorem isIndexable_way {above : List (List Char)} {name : String} (known : isIndexable name = true) :
    isIndexable (String.ofList (Text.joinWith ['/'] (above ++ [name.toList]))) = true := by
  rw [isIndexable, ofPath?_way known]
  exact known

end Path

end CodeSearch
