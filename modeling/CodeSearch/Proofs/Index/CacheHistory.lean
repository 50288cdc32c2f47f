import CodeSearch.Index.QueryCache
import CodeSearch.Proofs.Numeral.Differences
import Mathlib.Data.Finset.Card

/-! # What a cache answers after a history of calls

While the clock does not go back, the entries of a cache lie in the order of their times, so the one
that is dropped for want of room is the first. An entry whose time has run out is dropped when it is
looked up, whatever its place. Every entry in front of it has run out as well by then, so that
nothing is missing behind an entry that still answers. What a cache answers can therefore be read
off the calls alone.

An entry answers as long as the time since it was stored does not reach the lifetime. For a lifetime
that is defined, at a time that is not infinite, this is to say that it is shorter. An undefined
lifetime is never reached.
-/

namespace CodeSearch

/-- What is asked of a cache. -/
inductive CacheCall (ρ : Type) where
  | put (key : String) (answer : ρ)
  | get (key : String)
  | clear

namespace CacheCall

variable {ρ : Type}

def storedKey? : CacheCall ρ → Option String
  | put key _ => some key
  | get _ => none
  | clear => none

/-- The call neither replaces what is stored under a key nor clears it. -/
def Spares (key : String) : CacheCall ρ → Prop
  | put other _ => other ≠ key
  | get _ => True
  | clear => False

end CacheCall

/-! ## The entries of a cache -/

namespace OrderedMap

variable {κ ν : Type} [DecidableEq κ]

private theorem store_of_notMem {key : κ} {value : ν} {entries : List (κ × ν)}
    (absent : key ∉ entries.map Prod.fst) : store key value entries = entries ++ [(key, value)] := by
  induction entries with
  | nil => rfl
  | cons entry rest ih =>
    obtain ⟨k, v⟩ := entry
    rw [List.map_cons, List.mem_cons, not_or] at absent
    rw [store, if_neg (Ne.symm absent.1), ih absent.2]
    rfl

/-- What is stored under a key after erasing it comes last. -/
theorem entries_insert_erase (m : OrderedMap κ ν) (key : κ) (value : ν) :
    ((m.erase key).insert key value).entries = (m.erase key).entries ++ [(key, value)] := by
  refine store_of_notMem ?_
  change key ∉ (m.erase key).keys
  rw [keys_erase]
  simp

/-- What stands in front of an entry and behind it when another key is erased stood there before. -/
theorem exists_entries_of_erase {m : OrderedMap κ ν} {erased key : κ} {value : ν}
    {front behind : List (κ × ν)}
    (entries : (m.erase erased).entries = front ++ (key, value) :: behind) :
    key ≠ erased ∧ ∃ before after, m.entries = before ++ (key, value) :: after ∧
      behind = after.filter fun entry => decide (entry.1 ≠ erased) := by
  obtain ⟨before, rest, whole, -, kept⟩ := List.filter_eq_append_iff.mp entries
  obtain ⟨skipped, after, rest, -, other, last⟩ := List.filter_eq_cons_iff.mp kept
  refine ⟨of_decide_eq_true other, before ++ skipped, after, ?_, last.symm⟩
  rw [whole, rest, List.append_assoc]

end OrderedMap

private theorem filter_notMem_take {κ ν : Type} [DecidableEq κ] {entries : List (κ × ν)}
    (distinct : (entries.map Prod.fst).Nodup) (count : Nat) :
    entries.filter (fun entry => !((entries.map Prod.fst).take count).contains entry.1) =
      entries.drop count := by
  induction entries generalizing count with
  | nil => simp
  | cons entry rest ih =>
    cases count with
    | zero => simp
    | succ count =>
      rw [List.map_cons, List.nodup_cons] at distinct
      rw [List.drop_succ_cons, ← ih distinct.2, List.filter_cons_of_neg (by simp)]
      refine List.filter_congr fun other member => ?_
      have apart : other.1 ≠ entry.1 := fun same =>
        distinct.1 (same ▸ List.mem_map_of_mem member)
      simp [apart]

namespace QueryCache

variable {τ ρ : Type} [Scalar τ]

/-- Entries lie in the order in which they were stored. -/
def InOrder (entries : List (String × CacheEntry τ ρ)) : Prop :=
  entries.Pairwise fun first second => first.2.createdAt ≤ second.2.createdAt

-- where entries lie in the order of their times, the first ones are dropped
private theorem entries_trim [OrderedScalar τ] {entries : OrderedMap String (CacheEntry τ ρ)}
    (ordered : InOrder entries.entries)
    (defined : ∀ entry ∈ entries.entries, Scalar.IsDefined entry.2.createdAt) (maxEntries : Int) :
    (trim maxEntries entries).entries =
      entries.entries.drop ((entries.size : Int) - maxEntries).toNat := by
  have sorted : keysByAge entries = entries.entries.map Prod.fst := by
    have compares : keysDefined (fun entry : String × CacheEntry τ ρ => entry.2.createdAt)
        entries.entries = true := by
      simpa [keysDefined, Scalar.IsDefined] using fun key entry => defined (key, entry)
    rw [keysByAge, byRising, if_pos compares, List.mergeSort_of_pairwise]
    refine ordered.imp fun earlier => ?_
    simpa using fun less => OrderedScalar.not_le_of_lt less earlier
  simp only [trim, sorted, OrderedMap.filter]
  exact filter_notMem_take entries.distinct _

/-! ## A run of calls -/

section

variable {τ ρ : Type}

/-- The last entry that calls have stored under a key: it is neither replaced nor cleared since.
`others` are the keys under which something was stored since, as often as that was done. -/
def LastPut (calls : List (τ × CacheCall ρ)) (key : String) (entry : CacheEntry τ ρ)
    (others : List String) : Prop :=
  ∃ before since, calls = before ++ (entry.createdAt, .put key entry.answer) :: since ∧
    (∀ call ∈ since, call.2.Spares key) ∧ others = since.filterMap fun call => call.2.storedKey?

-- of one more call it matters whether it stores the entry, and else whether it leaves it
private theorem lastPut_concat {calls : List (τ × CacheCall ρ)} {now : τ} {call : CacheCall ρ}
    {key : String} {entry : CacheEntry τ ρ} {others : List String} :
    LastPut (calls ++ [(now, call)]) key entry others ↔
      (now = entry.createdAt ∧ call = .put key entry.answer ∧ others = []) ∨
        (call.Spares key ∧ ∃ earlier, LastPut calls key entry earlier ∧
          others = earlier ++ call.storedKey?.toList) := by
  constructor
  · rintro ⟨before, since, whole, spared, rfl⟩
    rcases List.eq_nil_or_concat' since with rfl | ⟨earlier, last, rfl⟩
    · obtain ⟨-, same⟩ := List.append_inj' whole rfl
      cases same
      exact .inl ⟨rfl, rfl, rfl⟩
    · rw [← List.cons_append, ← List.append_assoc] at whole
      obtain ⟨rfl, same⟩ := List.append_inj' whole rfl
      cases same
      refine .inr ⟨spared (now, call) (by simp), _, ⟨before, earlier, rfl, ?_, rfl⟩, ?_⟩
      · exact fun call member => spared call (List.mem_append_left _ member)
      · rw [List.filterMap_append]
        cases call <;> rfl
  · rintro (⟨rfl, rfl, rfl⟩ | ⟨spares, _, ⟨before, since, rfl, spared, rfl⟩, rfl⟩)
    · exact ⟨calls, [], rfl, by simp, rfl⟩
    · refine ⟨before, since ++ [(now, call)], by simp, ?_, ?_⟩
      · intro other member
        rcases List.mem_append.mp member with member | member
        · exact spared other member
        · rw [List.mem_singleton.mp member]
          exact spares
      · rw [List.filterMap_append]
        cases call <;> rfl

private theorem LastPut.mem {calls : List (τ × CacheCall ρ)} {key : String}
    {entry : CacheEntry τ ρ} {others : List String} (last : LastPut calls key entry others) :
    (entry.createdAt, .put key entry.answer) ∈ calls := by
  obtain ⟨before, since, rfl, -⟩ := last
  simp

-- calls tell what was stored last under a key
private theorem LastPut.unique {calls : List (τ × CacheCall ρ)} {key : String}
    {entry entry' : CacheEntry τ ρ} {others others' : List String}
    (last : LastPut calls key entry others) (last' : LastPut calls key entry' others') :
    entry = entry' ∧ others = others' := by
  induction calls using List.reverseRecOn generalizing others others' with
  | nil =>
    obtain ⟨before, since, whole, -⟩ := last
    simp at whole
  | append_singleton calls call ih =>
    rcases lastPut_concat.mp last with ⟨time, stores, rfl⟩ | ⟨spares, earlier, before, rfl⟩
    · rcases lastPut_concat.mp last' with ⟨time', stores', rfl⟩ | ⟨spares', -⟩
      · have answers : entry.answer = entry'.answer := by
          injection stores.symm.trans stores'
        cases entry
        cases entry'
        cases time.symm.trans time'
        cases answers
        exact ⟨rfl, rfl⟩
      · rw [stores] at spares'
        exact absurd rfl spares'
    · rcases lastPut_concat.mp last' with ⟨-, stores', -⟩ | ⟨-, earlier', before', rfl⟩
      · rw [stores'] at spares
        exact absurd rfl spares
      · obtain ⟨rfl, rfl⟩ := ih before before'
        exact ⟨rfl, rfl⟩

end

/-- Serves a call at a time. -/
def serve (cache : QueryCache τ ρ) (now : τ) : CacheCall ρ → QueryCache τ ρ
  | .put key answer => cache.put now key answer
  | .get key => (cache.get now key).2
  | .clear => cache.clear

/-- Serves calls one after another, each with the time at which it is made. -/
def run (cache : QueryCache τ ρ) (calls : List (τ × CacheCall ρ)) : QueryCache τ ρ :=
  calls.foldl (fun cache call => cache.serve call.1 call.2) cache

/-! ## What entries recall -/

/-- Entries go back to calls that were made up to a time. -/
structure Recalls (calls : List (τ × CacheCall ρ)) (now lifetime : τ)
    (entries : List (String × CacheEntry τ ρ)) : Prop where
  ordered : InOrder entries
  past : ∀ entry ∈ entries, entry.2.createdAt ≤ now
  /-- What lies behind an entry was stored since, and as long as the entry answers that is all that
  was stored since. -/
  stored : ∀ front key entry behind, entries = front ++ (key, entry) :: behind →
    ∃ others, LastPut calls key entry others ∧ behind.map Prod.fst ⊆ others ∧
      (¬ lifetime ≤ now - entry.createdAt → others ⊆ behind.map Prod.fst)

variable {calls : List (τ × CacheCall ρ)} {now lifetime : τ}
  {m : OrderedMap String (CacheEntry τ ρ)} {key : String} {entry : CacheEntry τ ρ}

namespace Recalls

private theorem nothing : Recalls calls now lifetime [] where
  ordered := List.Pairwise.nil
  past entry member := by cases member
  stored front key entry behind whole := by simp at whole

private theorem drop {entries : List (String × CacheEntry τ ρ)}
    (recalls : Recalls calls now lifetime entries) (count : Nat) :
    Recalls calls now lifetime (entries.drop count) where
  ordered := recalls.ordered.drop
  past entry member := recalls.past entry (List.mem_of_mem_drop member)
  stored front key entry behind whole := by
    refine recalls.stored (entries.take count ++ front) key entry behind ?_
    rw [List.append_assoc, ← whole, List.take_append_drop]

private theorem looked (recalls : Recalls calls now lifetime m.entries) :
    Recalls (calls ++ [(now, .get key)]) now lifetime m.entries where
  ordered := recalls.ordered
  past := recalls.past
  stored front other entry behind whole := by
    obtain ⟨others, last, since⟩ := recalls.stored front other entry behind whole
    refine ⟨others, lastPut_concat.mpr (.inr ⟨trivial, others, last, ?_⟩), since⟩
    exact (List.append_nil others).symm

-- what is stored is the latest entry, and it lies behind all others
private theorem put (recalls : Recalls calls now lifetime m.entries)
    (defined : Scalar.IsDefined now) (key : String) (answer : ρ) :
    Recalls (calls ++ [(now, .put key answer)]) now lifetime
      ((m.erase key).insert key ⟨answer, now⟩).entries := by
  rw [OrderedMap.entries_insert_erase]
  refine ⟨?_, ?_, ?_⟩
  · refine List.pairwise_append.mpr ⟨recalls.ordered.filter _, List.pairwise_singleton _ _, ?_⟩
    intro earlier member last single
    rw [List.mem_singleton.mp single]
    exact recalls.past earlier (List.mem_of_mem_filter member)
  · intro entry member
    rcases List.mem_append.mp member with member | single
    · exact recalls.past entry (List.mem_of_mem_filter member)
    · rw [List.mem_singleton.mp single]
      exact defined
  · intro front other kept behind whole
    rcases List.eq_nil_or_concat' behind with rfl | ⟨between, last, rfl⟩
    · obtain ⟨-, same⟩ := List.append_inj' whole rfl
      cases same
      exact ⟨[], lastPut_concat.mpr (.inl ⟨rfl, rfl, rfl⟩), by simp, by simp⟩
    · rw [← List.cons_append, ← List.append_assoc] at whole
      obtain ⟨erased, same⟩ := List.append_inj' whole rfl
      cases same
      obtain ⟨different, before, after, entries, rfl⟩ := OrderedMap.exists_entries_of_erase erased
      obtain ⟨others, last, since, all⟩ := recalls.stored before other kept after entries
      refine ⟨others ++ [key],
        lastPut_concat.mpr (.inr ⟨Ne.symm different, others, last, rfl⟩), ?_, ?_⟩
      · intro later member
        rw [List.map_append, List.mem_append] at member
        refine List.mem_append.mpr (member.imp_left fun member => ?_)
        obtain ⟨entry, inside, rfl⟩ := List.mem_map.mp member
        exact since (List.mem_map_of_mem (List.mem_of_mem_filter inside))
      · intro answers later member
        rw [List.map_append, List.mem_append]
        by_cases own : later = key
        · exact .inr (List.mem_singleton.mpr own)
        · rcases List.mem_append.mp member with member | member
          · obtain ⟨entry, inside, rfl⟩ := List.mem_map.mp (all answers member)
            exact .inl (List.mem_map_of_mem (List.mem_filter.mpr ⟨inside, decide_eq_true own⟩))
          · exact absurd (List.mem_singleton.mp member) own

variable [OrderedScalar τ] [MonotoneSub τ]

private theorem later {entries : List (String × CacheEntry τ ρ)}
    (recalls : Recalls calls now lifetime entries) {time : τ} (passes : now ≤ time) :
    Recalls calls time lifetime entries where
  ordered := recalls.ordered
  past entry member := OrderedScalar.trans (recalls.past entry member) passes
  stored front key entry behind whole := by
    obtain ⟨others, last, since, all⟩ := recalls.stored front key entry behind whole
    have earlier := recalls.past (key, entry) (whole ▸ List.mem_append_right _ List.mem_cons_self)
    refine ⟨others, last, since, fun answers => all fun expired => answers ?_⟩
    exact MonotoneSub.le_sub_of_le_sub (OrderedScalar.defined earlier).1 earlier passes expired

-- an entry that has run out does not lie behind one that has not, so it can be dropped
private theorem erase (recalls : Recalls calls now lifetime m.entries)
    (found : m.get? key = some entry) (expired : lifetime ≤ now - entry.createdAt) :
    Recalls calls now lifetime (m.erase key).entries where
  ordered := recalls.ordered.filter _
  past other member := recalls.past other (List.mem_of_mem_filter member)
  stored front other kept behind whole := by
    obtain ⟨-, before, after, entries, rfl⟩ := OrderedMap.exists_entries_of_erase whole
    obtain ⟨others, last, since, all⟩ := recalls.stored before other kept after entries
    refine ⟨others, last, fun later member => ?_, fun answers later member => ?_⟩
    · obtain ⟨entry, inside, rfl⟩ := List.mem_map.mp member
      exact since (List.mem_map_of_mem (List.mem_of_mem_filter inside))
    · obtain ⟨⟨_, later⟩, inside, rfl⟩ := List.mem_map.mp (all answers member)
      refine List.mem_map_of_mem (List.mem_filter.mpr ⟨inside, decide_eq_true ?_⟩)
      rintro rfl
      have own := (m.get?_eq_some_iff _ later).mpr
        (entries ▸ List.mem_append_right _ (List.mem_cons_of_mem _ inside))
      cases found.symm.trans own
      have ordered := recalls.ordered
      rw [InOrder, entries] at ordered
      have earlier : kept.createdAt ≤ entry.createdAt :=
        (List.pairwise_cons.mp (List.pairwise_append.mp ordered).2.1).1 _ inside
      have past := recalls.past _ ((m.get?_eq_some_iff _ entry).mp found)
      exact answers (MonotoneSub.le_sub_of_le_sub earlier past (OrderedScalar.defined past).2 expired)

end Recalls

/-! ## What a cache keeps -/

/-- What a cache keeps of a history of calls, as it stands at a time. -/
structure Keeps (calls : List (τ × CacheCall ρ)) (now : τ) (cache : QueryCache τ ρ) : Prop where
  recalls : Recalls calls now cache.lifetime cache.entries.entries
  room : (cache.size : Int) ≤ cache.maxEntries
  /-- An entry that has not run out and that has room is there. -/
  kept : ∀ key entry others, LastPut calls key entry others →
    ¬ cache.lifetime ≤ now - entry.createdAt → (others.toFinset.card : Int) < cache.maxEntries →
    cache.entries.get? key = some entry

variable {cache : QueryCache τ ρ}

namespace Keeps

private theorem clear (room : 0 ≤ cache.maxEntries) :
    Keeps (calls ++ [(now, .clear)]) now cache.clear where
  recalls := .nothing
  room := room
  kept key entry others last := by
    rcases lastPut_concat.mp last with ⟨-, stores, -⟩ | ⟨spares, -⟩
    · cases stores
    · exact spares.elim

-- there is room for an entry as long as few keys were stored since: what lies behind it are some of
-- them, each once
private theorem put [OrderedScalar τ] (keeps : Keeps calls now cache)
    (defined : Scalar.IsDefined now) (room : 0 ≤ cache.maxEntries) (answer : ρ) :
    Keeps (calls ++ [(now, .put key answer)]) now (cache.put now key answer) := by
  have recalls := keeps.recalls.put defined key answer
  have known : ∀ other entry others,
      LastPut (calls ++ [(now, .put key answer)]) other entry others →
      ¬ cache.lifetime ≤ now - entry.createdAt → (others.toFinset.card : Int) < cache.maxEntries →
      ((cache.entries.erase key).insert key ⟨answer, now⟩).get? other = some entry := by
    intro other entry others last answers few
    rw [OrderedMap.get?_insert]
    rcases lastPut_concat.mp last with ⟨rfl, same, -⟩ | ⟨spares, earlier, before, rfl⟩
    · cases same
      exact if_pos rfl
    · rw [if_neg spares, OrderedMap.get?_erase, if_neg (Ne.symm spares)]
      refine keeps.kept other entry earlier before answers (lt_of_le_of_lt ?_ few)
      rw [List.toFinset_append]
      exact Int.ofNat_le.mpr (Finset.card_le_card Finset.subset_union_left)
  generalize stored : (cache.entries.erase key).insert key ⟨answer, now⟩ = all at recalls known
  have entries : (cache.put now key answer).entries.entries =
      all.entries.drop ((all.size : Int) - cache.maxEntries).toNat := by
    rw [QueryCache.put, stored]
    refine entries_trim recalls.ordered (fun entry member => ?_) cache.maxEntries
    exact (OrderedScalar.defined (recalls.past entry member)).1
  refine ⟨entries ▸ recalls.drop _, ?_, ?_⟩
  · rw [QueryCache.size, OrderedMap.size, entries, List.length_drop, ← OrderedMap.size]
    change _ ≤ cache.maxEntries
    omega
  · intro other entry others last answers few
    have member := (all.get?_eq_some_iff other entry).mp (known other entry others last answers few)
    obtain ⟨front, behind, whole⟩ := List.append_of_mem member
    obtain ⟨others', last', since, -⟩ := recalls.stored front other entry behind whole
    obtain ⟨-, rfl⟩ := last.unique last'
    have distinct : (behind.map Prod.fst).Nodup := by
      have keys := all.distinct
      rw [whole, List.map_append, List.map_cons, List.nodup_append, List.nodup_cons] at keys
      exact keys.2.1.2
    have short : behind.length ≤ others.toFinset.card := by
      rw [← List.length_map Prod.fst, ← List.toFinset_card_of_nodup distinct]
      refine Finset.card_le_card fun key inside => ?_
      exact List.mem_toFinset.mpr (since (List.mem_toFinset.mp inside))
    have few : (others.toFinset.card : Int) < cache.maxEntries := few
    have place : ((all.size : Int) - cache.maxEntries).toNat ≤ front.length := by
      rw [OrderedMap.size, whole, List.length_append, List.length_cons]
      omega
    refine ((cache.put now key answer).entries.get?_eq_some_iff other entry).mpr ?_
    rw [entries, whole, List.drop_append_of_le_length place]
    exact List.mem_append_right _ List.mem_cons_self

private theorem looked (keeps : Keeps calls now cache) :
    Keeps (calls ++ [(now, .get key)]) now cache where
  recalls := keeps.recalls.looked
  room := keeps.room
  kept other entry others last := by
    rcases lastPut_concat.mp last with ⟨-, stores, -⟩ | ⟨-, earlier, before, rfl⟩
    · cases stores
    · simpa [CacheCall.storedKey?] using keeps.kept other entry earlier before

variable [OrderedScalar τ] [MonotoneSub τ]

private theorem later (keeps : Keeps calls now cache) (past : ∀ call ∈ calls, call.1 ≤ now)
    {time : τ} (passes : now ≤ time) : Keeps calls time cache where
  recalls := keeps.recalls.later passes
  room := keeps.room
  kept key entry others last answers := by
    have earlier := past _ last.mem
    refine keeps.kept key entry others last fun expired => answers ?_
    exact MonotoneSub.le_sub_of_le_sub (OrderedScalar.defined earlier).1 earlier passes expired

private theorem dropped (keeps : Keeps calls now cache)
    (found : cache.entries.get? key = some entry)
    (expired : cache.lifetime ≤ now - entry.createdAt) :
    Keeps calls now { cache with entries := cache.entries.erase key } where
  recalls := keeps.recalls.erase found expired
  room := by
    have fewer := List.length_filter_le (fun other : String × CacheEntry τ ρ =>
      decide (other.1 ≠ key)) cache.entries.entries
    exact (Int.ofNat_le.mpr fewer).trans keeps.room
  kept other entry' others last answers few := by
    have there := keeps.kept other entry' others last answers few
    rw [OrderedMap.get?_erase, if_neg, there]
    rintro rfl
    cases found.symm.trans there
    exact answers expired

private theorem get (keeps : Keeps calls now cache) :
    Keeps (calls ++ [(now, .get key)]) now (cache.get now key).2 := by
  rw [QueryCache.get]
  split
  · exact keeps.looked
  · next entry found =>
    split
    · next expired => exact (keeps.dropped found expired).looked
    · exact keeps.looked

private theorem serve (keeps : Keeps calls now cache) (defined : Scalar.IsDefined now)
    (room : 0 ≤ cache.maxEntries) (call : CacheCall ρ) :
    Keeps (calls ++ [(now, call)]) now (cache.serve now call) := by
  cases call with
  | put key answer => exact keeps.put defined room answer
  | get key => exact keeps.get
  | clear => exact clear room

end Keeps

private theorem run_concat (cache : QueryCache τ ρ) (calls : List (τ × CacheCall ρ))
    (call : τ × CacheCall ρ) :
    cache.run (calls ++ [call]) = (cache.run calls).serve call.1 call.2 := by
  rw [run, List.foldl_append]
  rfl

private theorem serve_limits (cache : QueryCache τ ρ) (now : τ) (call : CacheCall ρ) :
    (cache.serve now call).lifetime = cache.lifetime ∧
      (cache.serve now call).maxEntries = cache.maxEntries := by
  cases call with
  | put key answer => exact ⟨rfl, rfl⟩
  | get key =>
    simp only [serve, get]
    split
    · exact ⟨rfl, rfl⟩
    · split <;> exact ⟨rfl, rfl⟩
  | clear => exact ⟨rfl, rfl⟩

private theorem run_limits (cache : QueryCache τ ρ) (calls : List (τ × CacheCall ρ)) :
    (cache.run calls).lifetime = cache.lifetime ∧
      (cache.run calls).maxEntries = cache.maxEntries := by
  induction calls using List.reverseRecOn with
  | nil => exact ⟨rfl, rfl⟩
  | append_singleton calls call ih =>
    rw [run_concat]
    have kept := serve_limits (cache.run calls) call.1 call.2
    exact ⟨kept.1.trans ih.1, kept.2.trans ih.2⟩

theorem get_eq_some_iff {answer : ρ} :
    (cache.get now key).1 = some answer ↔
      ∃ stored, cache.entries.get? key = some ⟨answer, stored⟩ ∧
        ¬ cache.lifetime ≤ now - stored := by
  rw [get]
  split
  · next none => simp [none]
  · next entry found =>
    split
    · next expired =>
      refine iff_of_false (by simp) ?_
      rintro ⟨stored, own, answers⟩
      cases found.symm.trans own
      exact answers expired
    · next lasts =>
      rw [Option.some_inj]
      constructor
      · rintro rfl
        exact ⟨entry.createdAt, found, lasts⟩
      · rintro ⟨stored, own, -⟩
        cases found.symm.trans own
        rfl

-- few others were stored since, as all of them lie behind the entry
private theorem Keeps.answers (keeps : Keeps calls now cache)
    (found : cache.entries.get? key = some entry)
    (answers : ¬ cache.lifetime ≤ now - entry.createdAt) :
    ∃ others, LastPut calls key entry others ∧
      (others.toFinset.card : Int) < cache.maxEntries := by
  have member := (cache.entries.get?_eq_some_iff key entry).mp found
  obtain ⟨front, behind, whole⟩ := List.append_of_mem member
  obtain ⟨others, last, -, all⟩ := keeps.recalls.stored front key entry behind whole
  refine ⟨others, last, ?_⟩
  have fewer : others.toFinset.card ≤ behind.length := by
    rw [← List.length_map Prod.fst]
    refine (Finset.card_le_card fun key inside => ?_).trans (List.toFinset_card_le _)
    exact List.mem_toFinset.mpr (all answers (List.mem_toFinset.mp inside))
  have room := keeps.room
  rw [QueryCache.size, OrderedMap.size, whole, List.length_append, List.length_cons] at room
  omega

variable [OrderedScalar τ] [MonotoneSub τ]

-- The induction is on the calls, from the first to the last; the clock has not gone back up to any of
-- them.
private theorem keeps_run (lifetime : τ) {maxEntries : Int} (room : 0 ≤ maxEntries)
    (advances : calls.Pairwise fun first second => first.1 ≤ second.1)
    (past : ∀ call ∈ calls, call.1 ≤ now) :
    Keeps calls now (({ lifetime, maxEntries } : QueryCache τ ρ).run calls) := by
  induction calls using List.reverseRecOn generalizing now with
  | nil =>
    refine ⟨.nothing, room, ?_⟩
    rintro key entry others ⟨before, since, whole, -⟩
    simp at whole
  | append_singleton calls call ih =>
    obtain ⟨advances, -, earlier⟩ := List.pairwise_append.mp advances
    have passes := past call (by simp)
    have defined := (OrderedScalar.defined passes).1
    have before : ∀ earlier ∈ calls, earlier.1 ≤ call.1 := fun other member =>
      earlier other member call (by simp)
    have keeps := ih advances before
    have limit := (run_limits ({ lifetime, maxEntries } : QueryCache τ ρ) calls).2
    rw [run_concat]
    refine (keeps.serve defined (limit ▸ room) call.2).later (fun other member => ?_) passes
    rcases List.mem_append.mp member with member | single
    · exact before other member
    · rw [List.mem_singleton.mp single]
      exact defined

/-- A cache answers with what was stored last under a key, as long as its lifetime is not reached,
nothing was cleared and fewer other keys than it has room for were stored under since. It never
holds more than it has room for. -/
theorem answers_from_its_history (lifetime : τ) (maxEntries : Int) (room : 0 ≤ maxEntries)
    (calls : List (τ × CacheCall ρ)) (now : τ)
    (advances : calls.Pairwise fun first second => first.1 ≤ second.1)
    (past : ∀ call ∈ calls, call.1 ≤ now) :
    let cache := ({ lifetime, maxEntries } : QueryCache τ ρ).run calls
    (cache.size : Int) ≤ maxEntries ∧
    (∀ key answer, (cache.get now key).1 = some answer ↔
      ∃ stored others, LastPut calls key ⟨answer, stored⟩ others ∧ ¬ lifetime ≤ now - stored ∧
        (others.toFinset.card : Int) < maxEntries) ∧
    (Scalar.IsDefined lifetime → Scalar.IsDefined (now - now) →
      ∀ key answer, (cache.get now key).1 = some answer ↔
        ∃ stored others, LastPut calls key ⟨answer, stored⟩ others ∧ now - stored < lifetime ∧
          (others.toFinset.card : Int) < maxEntries) := by
  intro cache
  have keeps : Keeps calls now cache := keeps_run lifetime room advances past
  have time : cache.lifetime = lifetime := (run_limits _ calls).1
  have limit : cache.maxEntries = maxEntries := (run_limits _ calls).2
  have answers : ∀ key answer, (cache.get now key).1 = some answer ↔
      ∃ stored others, LastPut calls key ⟨answer, stored⟩ others ∧ ¬ lifetime ≤ now - stored ∧
        (others.toFinset.card : Int) < maxEntries := by
    intro key answer
    rw [get_eq_some_iff, time]
    constructor
    · rintro ⟨stored, found, lasts⟩
      obtain ⟨others, last, few⟩ := keeps.answers found (time ▸ lasts)
      exact ⟨stored, others, last, lasts, limit ▸ few⟩
    · rintro ⟨stored, others, last, lasts, few⟩
      exact ⟨stored, keeps.kept key ⟨answer, stored⟩ others last (time ▸ lasts) (limit ▸ few), lasts⟩
  refine ⟨limit ▸ keeps.room, answers, fun defined finite key answer => (answers key answer).trans ?_⟩
  refine exists_congr fun stored => exists_congr fun others => and_congr_right fun last => ?_
  rw [OrderedScalar.not_le_iff defined (MonotoneSub.isDefined_sub finite (past _ last.mem))]

/-- A key that is stored under again while there is room for two. -/
def storedAgain : List (Float × CacheCall Nat) :=
  [(0, .put "run" 1), (1, .put "find" 2), (1, .get "run"), (3, .put "run" 3), (4, .put "index" 4),
    (4, .get "find"), (5, .put "index" 5)]

/-- What was stored again answers until its time has run out, and what was dropped for want of room
does not. -/
theorem stored_again_is_answered :
    let cache := ({ lifetime := 4, maxEntries := 2 } : QueryCache Float Nat).run storedAgain
    (storedAgain.Pairwise fun first second => first.1 ≤ second.1) ∧
    (∀ call ∈ storedAgain, call.1 ≤ 6) ∧ (∀ call ∈ storedAgain, call.1 ≤ 7) ∧
    (cache.size : Int) ≤ 2 ∧ (cache.get 6 "run").1 = some 3 ∧ (cache.get 6 "find").1 = none ∧
    (cache.get 7 "run").1 = none := by
  intro cache
  have advances : storedAgain.Pairwise fun first second => first.1 ≤ second.1 := by decide +kernel
  have past : ∀ call ∈ storedAgain, call.1 ≤ 6 := by decide +kernel
  have past' : ∀ call ∈ storedAgain, call.1 ≤ 7 := by decide +kernel
  have run : LastPut storedAgain "run" ⟨3, 3⟩ ["index", "index"] :=
    ⟨storedAgain.take 3, storedAgain.drop 4, rfl, by simp [storedAgain, CacheCall.Spares], rfl⟩
  have find : LastPut storedAgain "find" ⟨2, 1⟩ ["run", "index", "index"] :=
    ⟨storedAgain.take 1, storedAgain.drop 2, rfl, by simp [storedAgain, CacheCall.Spares], rfl⟩
  obtain ⟨room, -, answers⟩ := answers_from_its_history 4 2 (by decide) storedAgain 6 advances past
  obtain ⟨-, -, later⟩ := answers_from_its_history 4 2 (by decide) storedAgain 7 advances past'
  have answers := answers (by decide +kernel) (by decide +kernel)
  have later := later (by decide +kernel) (by decide +kernel)
  refine ⟨advances, past, past', room, ?_, ?_, ?_⟩
  · exact (answers "run" 3).mpr ⟨3, _, run, by decide +kernel, by decide⟩
  · refine Option.eq_none_iff_forall_ne_some.mpr fun answer found => ?_
    obtain ⟨stored, others, last, -, few⟩ := (answers "find" answer).mp found
    obtain ⟨-, rfl⟩ := last.unique find
    exact absurd few (by decide)
  · refine Option.eq_none_iff_forall_ne_some.mpr fun answer found => ?_
    obtain ⟨stored, others, last, lasts, -⟩ := (later "run" answer).mp found
    obtain ⟨same, -⟩ := last.unique run
    cases same
    exact absurd lasts (by decide +kernel)

/-- An undefined lifetime is never reached, nor is any lifetime between two infinite times. -/
theorem undefined_times_never_run_out :
    let undefined : Float := 0 / 0
    let infinite : Float := 1 / 0
    ((({ lifetime := undefined, maxEntries := 1 } : QueryCache Float Nat).run
      [(0, .put "run" 1)]).get 1 "run").1 = some 1 ∧
    (¬ ∃ stored others, LastPut [(0, .put "run" 1)] "run" (⟨1, stored⟩ : CacheEntry Float Nat) others ∧
      1 - stored < undefined ∧ (others.toFinset.card : Int) < 1) ∧
    ((({ lifetime := 10, maxEntries := 1 } : QueryCache Float Nat).run
      [(infinite, .put "run" 1)]).get infinite "run").1 = some 1 ∧
    ¬ ∃ stored others, LastPut [(infinite, .put "run" 1)] "run"
      (⟨1, stored⟩ : CacheEntry Float Nat) others ∧
      infinite - stored < 10 ∧ (others.toFinset.card : Int) < 1 := by
  refine ⟨by decide +kernel, ?_, by decide +kernel, ?_⟩
  · rintro ⟨stored, others, last, lasts, -⟩
    cases List.mem_singleton.mp last.mem
    exact absurd lasts (by decide +kernel)
  · rintro ⟨stored, others, last, lasts, -⟩
    cases List.mem_singleton.mp last.mem
    exact absurd lasts (by decide +kernel)

end QueryCache

end CodeSearch
