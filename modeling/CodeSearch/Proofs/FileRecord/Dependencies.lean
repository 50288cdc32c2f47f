import CodeSearch.FileRecord.Dependencies
import CodeSearch.Proofs.FileRecord.Stretches
import CodeSearch.Proofs.Text.Words
import Mathlib.Data.List.Pairwise

/-! # The order of dependencies

Every module name that a form of import finds is listed once. The forms are searched for one after
another in the whole text, so that of two names the one comes first which is found first by the
earliest form that finds either. This need not be the one that stands first in the text, but it is
where the forms follow each other in the text as they do in the search.
-/

namespace CodeSearch

/-! ## Members without repetitions -/

section Unique

variable {items : List (List Char)} {item : List Char}

theorem mem_unique : item ∈ unique items ↔ item ∈ items := by
  induction items with
  | nil => exact Iff.rfl
  | cons first rest ih =>
    rw [unique, List.mem_cons, List.mem_filter, ih, List.mem_cons, bne_iff_ne]
    by_cases same : item = first <;> simp [same]

/-- Members are kept in the order of their first places. -/
theorem unique_rising (items : List (List Char)) :
    (unique items).Pairwise fun first second => items.idxOf first < items.idxOf second := by
  induction items with
  | nil => exact .nil
  | cons item rest ih =>
    have later (other : List Char) (member : other ∈ (unique rest).filter (· != item)) :
        (item :: rest).idxOf other = rest.idxOf other + 1 :=
      List.idxOf_cons_ne _ (bne_iff_ne.mp (List.mem_filter.mp member).2).symm
    refine List.pairwise_cons.mpr ⟨fun other member => ?_, ?_⟩
    · rw [List.idxOf_cons_self, later other member]
      exact Nat.succ_pos _
    · refine (ih.filter _).imp_of_mem fun {first second} member member' less => ?_
      rw [later first member, later second member']
      exact Nat.succ_lt_succ less

theorem nodup_unique (items : List (List Char)) : (unique items).Nodup := by
  refine (unique_rising items).imp fun less => ?_
  rintro rfl
  exact Nat.lt_irrefl _ less

end Unique

namespace Dependencies

open Pattern

/-! ## Forms of import -/

/-- A form in which modules are named: what it finds in a text are the names, with their offsets. -/
abbrev Form := List Char → List Capture

/-- The modules in the parts of an import list, the first of which starts at an offset; behind each
part stands a comma. -/
def located (offset : ℕ) : List (List Char) → List Capture
  | [] => []
  | part :: rest =>
    let name := (Text.trim part).takeWhile (· != ' ')
    let later := located (offset + part.length + 1) rest
    if name.isEmpty then later
    else ⟨offset + (part.takeWhile Text.isBlank).length, name⟩ :: later

def modulesIn (list : Capture) : List Capture := located list.offset (listed list.text)

/-- The forms of a language in the order in which they are searched for. -/
def languageForms : Language → List Form
  | .typescript | .javascript => [importFrom.captures, sideEffectImport.captures, required.captures]
  | .python =>
    [fromImport.captures, fun content => (moduleImport.captures content).flatMap modulesIn]
  | _ => []

/-- The forms of a language given by its tag. -/
def formsOf (tag : String) : List Form :=
  match Language.ofName? tag with
  | some language => languageForms language
  | none => []

/-- All that the forms find in a text, form by form. -/
def finds (forms : List Form) (content : List Char) : List (List Char) :=
  forms.flatMap fun form => (form content).map Capture.text

variable {forms : List Form} {content name first second : List Char}

theorem mem_finds_iff :
    name ∈ finds forms content ↔ ∃ form ∈ forms, ∃ found ∈ form content, found.text = name := by
  simp only [finds, List.mem_flatMap, List.mem_map]

theorem map_text_located (offset : ℕ) (parts : List (List Char)) :
    (located offset parts).map Capture.text =
      (parts.map fun part => (Text.trim part).takeWhile (· != ' ')).filter fun name =>
        !name.isEmpty := by
  induction parts generalizing offset with
  | nil => rfl
  | cons part rest ih =>
    rw [located, List.map_cons, List.filter_cons]
    by_cases empty : ((Text.trim part).takeWhile (· != ' ')).isEmpty = true
    · simp [empty, ih]
    · simp [empty, ih]

/-- The forms find the specifiers of a language. -/
theorem specifiers_eq_finds (language : Language) (content : List Char) :
    specifiers language content = finds (languageForms language) content := by
  have modules : ((moduleImport.captures content).map Capture.text).flatMap moduleNames =
      ((moduleImport.captures content).flatMap modulesIn).map Capture.text := by
    rw [List.flatMap_map, List.map_flatMap]
    exact List.flatMap_congr fun list _ => (map_text_located _ _).symm
  cases language <;> simp [specifiers, languageForms, finds, texts, modules]

theorem extractDependencies_eq_unique (content tag : String) :
    (extractDependencies content tag).map String.toList =
      unique (finds (formsOf tag) content.toList) := by
  rw [extractDependencies, identifiers, formsOf]
  cases Language.ofName? tag with
  | none => rfl
  | some language => simp [specifiers_eq_finds]

/-! ## Where the modules stand -/

/-- What follows something that stands at an offset stands behind it. -/
theorem prefix_drop_add {front back : List Char} {offset : ℕ}
    (stands : front ++ back <+: content.drop offset) :
    back <+: content.drop (offset + front.length) := by
  obtain ⟨tail, same⟩ := stands
  refine ⟨tail, ?_⟩
  rw [← List.drop_drop, ← same, List.append_assoc, List.drop_left]

/-- The module in a part of a list stands behind the blanks with which the part begins. -/
theorem module_stands_behind_blanks (part : List Char) :
    (Text.trim part).takeWhile (· != ' ') <+: part.dropWhile Text.isBlank :=
  (List.takeWhile_prefix _).trans (List.rdropWhile_prefix _ (Text.trimLeft part))

/-- The modules in the parts of a list stand one behind another, none of them behind the list. -/
theorem located_areApart {offset : ℕ} {parts : List (List Char)}
    (stands : Text.joinWith [','] parts <+: content.drop offset) :
    AreApart content offset (located offset parts) ∧ ∀ found ∈ located offset parts,
      found.stop ≤ offset + (Text.joinWith [','] parts).length := by
  induction parts generalizing offset with
  | nil => exact ⟨.nil, nofun⟩
  | cons part rest ih =>
    obtain ⟨tail, shape, later, ends⟩ : ∃ tail, Text.joinWith [','] (part :: rest) = part ++ tail ∧
        AreApart content (offset + part.length) (located (offset + part.length + 1) rest) ∧
        ∀ found ∈ located (offset + part.length + 1) rest,
          found.stop ≤ offset + (part ++ tail).length := by
      cases rest with
      | nil => exact ⟨[], (List.append_nil part).symm, .nil, nofun⟩
      | cons next more =>
        have shape := Text.joinWith_cons [','] part (next :: more) (List.cons_ne_nil _ _)
        have behind := prefix_drop_add (shape ▸ stands)
        rw [List.length_append, ← Nat.add_assoc] at behind
        obtain ⟨apart, ends⟩ := ih behind
        refine ⟨_, shape.trans (List.append_assoc _ _ _), apart.mono (Nat.le_succ _), ?_⟩
        intro found member
        refine (ends found member).trans ?_
        simp only [List.length_append, List.length_singleton]
        omega
    rw [shape] at stands ⊢
    rw [located]
    by_cases empty : ((Text.trim part).takeWhile (· != ' ')).isEmpty = true
    · rw [if_pos empty]
      exact ⟨later.mono (Nat.le_add_right _ _), ends⟩
    · rw [if_neg empty]
      let front := part.takeWhile Text.isBlank
      let name := (Text.trim part).takeWhile (· != ' ')
      have cut : front ++ part.dropWhile Text.isBlank = part := List.takeWhile_append_dropWhile
      have here : part.dropWhile Text.isBlank ++ tail <+: content.drop (offset + front.length) :=
        prefix_drop_add (by rwa [← List.append_assoc, cut])
      have reach : front.length + name.length ≤ part.length := by
        rw [← congrArg List.length cut, List.length_append]
        exact Nat.add_le_add_left (module_stands_behind_blanks part).length_le _
      have own : Capture.StandsIn content ⟨offset + front.length, name⟩ :=
        ⟨fun none => empty (List.isEmpty_iff.mpr none),
          ((module_stands_behind_blanks part).trans (List.prefix_append _ _)).trans here⟩
      have stop : Capture.stop ⟨offset + front.length, name⟩ ≤ offset + part.length := by
        rw [Capture.stop, Nat.add_assoc]
        exact Nat.add_le_add_left reach offset
      refine ⟨.cons own (Nat.le_add_right _ _) (later.mono stop),
        List.forall_mem_cons.mpr ⟨stop.trans ?_, ends⟩⟩
      rw [List.length_append]
      omega

/-- The modules in the lists of a text stand one behind another. -/
theorem flatMap_modulesIn_areApart {lists : List Capture} (apart : AreApart content 0 lists) :
    AreApart content 0 (lists.flatMap modulesIn) := by
  have inside (list : Capture) (member : list ∈ lists) :
      AreApart content list.offset (modulesIn list) ∧
        ∀ found ∈ modulesIn list, found.stop ≤ list.stop := by
    have whole : Text.joinWith [','] (listed list.text) = list.text := Text.joinWith_splitAt ',' _
    have stands := (apart.stand list member).here
    rw [← whole] at stands
    obtain ⟨within, ends⟩ := located_areApart stands
    rw [whole] at ends
    exact ⟨within, ends⟩
  exact apart.flatMap (fun list member => (inside list member).1) fun list member =>
    (inside list member).2

/-- What a form finds stands in the text, one name behind another. -/
theorem areApart_of_mem_languageForms {language : Language} {form : Form}
    (known : form ∈ languageForms language) (content : List Char) :
    AreApart content 0 (form content) := by
  have scripts : ∀ form ∈ [importFrom.captures, sideEffectImport.captures, required.captures],
      AreApart content 0 (form content) := by
    simp only [List.forall_mem_cons, List.not_mem_nil, false_imp_iff, implies_true, and_true]
    refine ⟨captures_areApart ?_ content, captures_areApart ?_ content,
      captures_areApart ?_ content⟩ <;>
    simp [importFrom, sideEffectImport, required, quoted, taken, wideGap, Pattern.all,
      Pattern.word, Pattern.gap, Pattern.blanks, RemembersRuns]
  have modules : moduleImport.RemembersRuns ∧ fromImport.RemembersRuns := by
    simp [moduleImport, fromImport, Pattern.all, Pattern.word, Pattern.gap, Pattern.blanks,
      RemembersRuns]
  cases language with
  | typescript => exact scripts form known
  | javascript => exact scripts form known
  | python =>
    rcases List.mem_pair.mp known with rfl | rfl
    · exact captures_areApart modules.2 content
    · exact flatMap_modulesIn_areApart (captures_areApart modules.1 content)
  | _ => exact absurd known List.not_mem_nil

theorem areApart_of_mem_formsOf {tag : String} {form : Form} (known : form ∈ formsOf tag)
    (content : List Char) : AreApart content 0 (form content) := by
  unfold formsOf at known
  split at known
  · exact areApart_of_mem_languageForms known content
  · exact absurd known List.not_mem_nil

/-! ## Which of two names comes first -/

/-- The earliest form that finds either of two names finds the first one in front of the second. -/
inductive ComesFirst (content first second : List Char) : List Form → Prop where
  | here {form : Form} {rest : List Form} {found : Capture} (member : found ∈ form content)
      (own : found.text = first)
      (behind : ∀ other ∈ form content, other.text = second → found.offset < other.offset) :
      ComesFirst content first second (form :: rest)
  | later {form : Form} {rest : List Form} (none : ∀ found ∈ form content, found.text ≠ first)
      (none' : ∀ found ∈ form content, found.text ≠ second)
      (comes : ComesFirst content first second rest) :
      ComesFirst content first second (form :: rest)

/-- Some form finds the first of two names in front of all places where forms find the second. -/
def StandsAhead (forms : List Form) (content first second : List Char) : Prop :=
  ∃ form ∈ forms, ∃ found ∈ form content, found.text = first ∧
    ∀ form' ∈ forms, ∀ other ∈ form' content, other.text = second → found.offset < other.offset

instance : Decidable (StandsAhead forms content first second) := by
  unfold StandsAhead
  infer_instance

/-- The forms follow each other in the text: whatever one of them finds stands in front of all that
the later ones find. -/
def FollowEachOther (forms : List Form) (content : List Char) : Prop :=
  forms.Pairwise fun earlier later =>
    ∀ found ∈ earlier content, ∀ other ∈ later content, found.offset < other.offset

instance : Decidable (FollowEachOther forms content) := by
  unfold FollowEachOther
  infer_instance

theorem exists_of_idxOf_lt {captures : List Capture}
    (rising : captures.Pairwise fun capture other => capture.offset < other.offset)
    (member : first ∈ captures.map Capture.text)
    (less : (captures.map Capture.text).idxOf first < (captures.map Capture.text).idxOf second) :
    ∃ found ∈ captures, found.text = first ∧
      ∀ other ∈ captures, other.text = second → found.offset < other.offset := by
  induction captures with
  | nil => exact absurd member List.not_mem_nil
  | cons capture rest ih =>
    obtain ⟨behind, rising⟩ := List.pairwise_cons.mp rising
    rw [List.map_cons] at member less
    have notSecond : capture.text ≠ second := by
      rintro rfl
      rw [List.idxOf_cons_self] at less
      exact Nat.not_lt_zero _ less
    have inRest (other : Capture) (known : other ∈ capture :: rest) (text : other.text = second) :
        other ∈ rest :=
      (List.mem_cons.mp known).resolve_left fun same => notSecond (same ▸ text)
    by_cases own : capture.text = first
    · exact ⟨capture, List.mem_cons_self, own, fun other known text =>
        behind other (inRest other known text)⟩
    · rw [List.idxOf_cons_ne _ own, List.idxOf_cons_ne _ notSecond] at less
      have member : first ∈ rest.map Capture.text :=
        (List.mem_cons.mp member).resolve_left fun same => own same.symm
      obtain ⟨found, known, text, order⟩ := ih rising member (Nat.lt_of_succ_lt_succ less)
      exact ⟨found, List.mem_cons_of_mem _ known, text, fun other known' text' =>
        order other (inRest other known' text') text'⟩

/-- The place of a name among all that the forms find tells which name comes first. -/
theorem comesFirst_of_idxOf_lt (apart : ∀ form ∈ forms, AreApart content 0 (form content))
    (less : (finds forms content).idxOf first < (finds forms content).idxOf second) :
    ComesFirst content first second forms := by
  induction forms with
  | nil => exact absurd less (Nat.lt_irrefl _)
  | cons form rest ih =>
    obtain ⟨here, later⟩ := List.forall_mem_cons.mp apart
    have shape : finds (form :: rest) content =
      (form content).map Capture.text ++ finds rest content := List.flatMap_cons
    rw [shape, List.idxOf_append, List.idxOf_append] at less
    by_cases member : first ∈ (form content).map Capture.text
    · rw [if_pos member] at less
      have less : ((form content).map Capture.text).idxOf first <
          ((form content).map Capture.text).idxOf second := by
        by_cases member' : second ∈ (form content).map Capture.text
        · rwa [if_pos member'] at less
        · rw [List.idxOf_eq_length member']
          exact List.idxOf_lt_length_of_mem member
      obtain ⟨found, known, own, behind⟩ := exists_of_idxOf_lt here.rising member less
      exact .here known own behind
    · rw [if_neg member] at less
      have member' : second ∉ (form content).map Capture.text := by
        intro member'
        have within := List.idxOf_lt_length_of_mem member'
        rw [if_pos member'] at less
        omega
      rw [if_neg member'] at less
      refine .later ?_ ?_ (ih later (Nat.lt_of_add_lt_add_right less))
      · exact fun found known text => member (List.mem_map.mpr ⟨found, known, text⟩)
      · exact fun found known text => member' (List.mem_map.mpr ⟨found, known, text⟩)

theorem ComesFirst.asymm (comes : ComesFirst content first second forms) :
    ¬ ComesFirst content second first forms := by
  induction comes with
  | here member own behind =>
    rintro (⟨member', own', behind'⟩ | ⟨-, none, -⟩)
    · exact Nat.lt_asymm (behind _ member' own') (behind' _ member own)
    · exact none _ member own
  | later none none' _ ih =>
    rintro (⟨member', own', -⟩ | ⟨-, -, comes'⟩)
    · exact none' _ member' own'
    · exact ih comes'

/-- Where the forms follow each other, the name that comes first stands ahead. -/
theorem ComesFirst.standsAhead (comes : ComesFirst content first second forms)
    (follow : FollowEachOther forms content) : StandsAhead forms content first second := by
  induction comes with
  | @here form rest found member own behind =>
    refine ⟨form, List.mem_cons_self, found, member, own, fun other known => ?_⟩
    rcases List.mem_cons.mp known with rfl | later
    · exact behind
    · exact fun capture listed _ => (List.pairwise_cons.mp follow).1 other later _ member _ listed
  | later none none' _ ih =>
    obtain ⟨form, known, found, member, own, behind⟩ := ih (List.pairwise_cons.mp follow).2
    refine ⟨form, List.mem_cons_of_mem _ known, found, member, own, fun other known' => ?_⟩
    rcases List.mem_cons.mp known' with rfl | later
    · exact fun capture listed text => absurd text (none' capture listed)
    · exact behind other later

/-! ## The list of dependencies -/

/-- A list of what forms find in a text, each name once. The names come form by form, which is their
order in the text just if of any two names the one that comes first stands ahead of the other. -/
structure IsListOf (forms : List Form) (content : List Char) (listed : List (List Char)) :
    Prop where
  stand : ∀ form ∈ forms, ∀ found ∈ form content, found.StandsIn content
  names : ∀ name, name ∈ listed ↔ ∃ form ∈ forms, ∃ found ∈ form content, found.text = name
  once : listed.Nodup
  comeFirst : listed.Pairwise fun first second => ComesFirst content first second forms
  standAhead_iff : listed.Pairwise (StandsAhead forms content) ↔
    ∀ first ∈ listed, ∀ second ∈ listed, ComesFirst content first second forms →
      StandsAhead forms content first second
  standAhead : FollowEachOther forms content → listed.Pairwise (StandsAhead forms content)

/-- In a list that is ordered by an asymmetric relation, related members stand in that order. -/
theorem rel_of_pairwise {γ : Type} {R S : γ → γ → Prop} {members : List γ} {a b : γ}
    (asymm : ∀ a b, R a b → ¬ R b a) (ordered : members.Pairwise R) (also : members.Pairwise S)
    (member : a ∈ members) (member' : b ∈ members) (related : R a b) : S a b := by
  have symmetric : Std.Symm fun a b => R a b ∧ S a b ∨ R b a ∧ S b a := ⟨fun _ _ => Or.symm⟩
  have different : a ≠ b := by
    rintro rfl
    exact asymm a a related related
  have either : members.Pairwise fun a b => R a b ∧ S a b ∨ R b a ∧ S b a :=
    (ordered.and also).imp Or.inl
  rcases either.forall member member' different with ⟨-, s⟩ | ⟨r, -⟩
  · exact s
  · exact absurd r (asymm a b related)

theorem isListOf_unique_finds (apart : ∀ form ∈ forms, AreApart content 0 (form content)) :
    IsListOf forms content (unique (finds forms content)) := by
  have order : (unique (finds forms content)).Pairwise fun first second =>
      ComesFirst content first second forms :=
    (unique_rising _).imp fun less => comesFirst_of_idxOf_lt apart less
  constructor
  case stand => exact fun form known => (apart form known).stand
  case names => exact fun name => mem_unique.trans mem_finds_iff
  case once => exact nodup_unique _
  case comeFirst => exact order
  case standAhead_iff =>
    constructor
    · intro ahead first member second member'
      exact rel_of_pairwise (fun _ _ comes => comes.asymm) order ahead member member'
    · intro agree
      exact order.imp_of_mem fun member member' => agree _ member _ member'
  case standAhead => exact fun follow => order.imp fun comes => comes.standsAhead follow

end Dependencies

open Dependencies

/-- The dependencies of a text are all modules that the forms of its language find, each once. They
come form by form, and in the order of the text where the forms follow each other. -/
theorem dependencies_come_form_by_form (content tag : String) :
    IsListOf (formsOf tag) content.toList
      ((extractDependencies content tag).map String.toList) := by
  rw [extractDependencies_eq_unique]
  exact isListOf_unique_finds fun form known => areApart_of_mem_formsOf known content.toList

/-- Modules that are named again, in lists and on their own, behind the first form. -/
theorem modules_of_orderly_text :
    let content := "from b.c import x\nfrom a import y\nimport os , b.c, sys as s\nimport a"
    extractDependencies content "python" = ["b.c", "a", "os", "sys"] ∧
      FollowEachOther (formsOf "python") content.toList ∧
      ((extractDependencies content "python").map String.toList).Pairwise
        (StandsAhead (formsOf "python") content.toList) := by
  intro content
  have follow : FollowEachOther (formsOf "python") content.toList := by decide +kernel
  exact ⟨by decide +kernel, follow,
    (dependencies_come_form_by_form content "python").standAhead follow⟩

/-- A module that is required in front of an import is listed behind it, and so is one that is
imported whole in front of an import of names. -/
theorem listed_modules_leave_the_order_of_the_text :
    let script := "const fs = require('fs');\nimport React from 'react';"
    let program := "import os\nfrom pathlib import Path"
    extractDependencies script "typescript" = ["react", "fs"] ∧
      StandsAhead (formsOf "typescript") script.toList "fs".toList "react".toList ∧
      ¬ ((extractDependencies script "typescript").map String.toList).Pairwise
        (StandsAhead (formsOf "typescript") script.toList) ∧
      extractDependencies program "python" = ["pathlib", "os"] ∧
      ¬ ((extractDependencies program "python").map String.toList).Pairwise
        (StandsAhead (formsOf "python") program.toList) := by
  decide +kernel

end CodeSearch
