import Mathlib.Data.List.Nodup
import Mathlib.Data.List.Perm.Subperm
import Mathlib.Logic.Function.Basic

set_option autoImplicit false

namespace ZonKey

structure KeyedQueue (κ ν : Type*) where
  order : List κ
  entries : κ → Option ν

namespace KeyedQueue
variable {κ ν : Type*}

def empty : KeyedQueue κ ν := ⟨[], fun _ => none⟩

def contains (q : KeyedQueue κ ν) (k : κ) : Bool := (q.entries k).isSome

def pushBack (q : KeyedQueue κ ν) (k : κ) : KeyedQueue κ ν := { q with order := q.order ++ [k] }

def listed (q : KeyedQueue κ ν) : List ν := q.order.filterMap q.entries

def Coherent (q : KeyedQueue κ ν) : Prop := ∀ k, k ∈ q.order ↔ (q.entries k).isSome

@[simp] theorem contains_eq_false (q : KeyedQueue κ ν) (k : κ) :
    q.contains k = false ↔ q.entries k = none := by
  simp [contains]

theorem coherent_empty : Coherent (empty : KeyedQueue κ ν) := by
  intro k
  simp [empty]

theorem Coherent.mem_order {q : KeyedQueue κ ν} (h : q.Coherent) {k : κ} {v : ν}
    (hk : q.entries k = some v) : k ∈ q.order := (h k).mpr (by simp [hk])

theorem Coherent.listed_length {q : KeyedQueue κ ν} (h : q.Coherent) :
    q.listed.length = q.order.length := by
  unfold listed
  rw [List.length_filterMap_eq_countP, List.countP_eq_length]
  intro k hk
  exact (h k).mp hk

theorem mem_listed {q : KeyedQueue κ ν} {v : ν} :
    v ∈ q.listed ↔ ∃ k ∈ q.order, q.entries k = some v := List.mem_filterMap

theorem Coherent.mem_listed {q : KeyedQueue κ ν} (h : q.Coherent) {v : ν} :
    v ∈ q.listed ↔ ∃ k, q.entries k = some v := by
  rw [KeyedQueue.mem_listed]
  exact ⟨fun ⟨k, _, hk⟩ => ⟨k, hk⟩, fun ⟨k, hk⟩ => ⟨k, h.mem_order hk, hk⟩⟩

def ListsOnce (q : KeyedQueue κ ν) : Prop :=
  ∃ keys : List κ, keys.Nodup ∧ (∀ k, k ∈ keys ↔ (q.entries k).isSome) ∧
    q.listed.map some = keys.map q.entries

theorem Coherent.listed_map_some {q : KeyedQueue κ ν} (h : q.Coherent) :
    q.listed.map some = q.order.map q.entries := by
  have each : ∀ v ∈ q.order.map q.entries, v.isSome = true := by
    intro v mem
    obtain ⟨k, hk, rfl⟩ := List.mem_map.mp mem
    exact (h k).mp hk
  unfold listed
  rw [List.map_filterMap_some_eq_filter_map_isSome, List.filter_eq_self.mpr each]

/-- The listing is as long as the queue, so it shows an entry twice exactly when
the queue names its key twice. -/
theorem Coherent.listsOnce_iff {q : KeyedQueue κ ν} (h : q.Coherent) :
    q.ListsOnce ↔ q.order.Nodup := by
  constructor
  · rintro ⟨keys, nodup, same, listed⟩
    have size : q.order.length ≤ keys.length := by
      have lengths := congrArg List.length listed
      rw [List.length_map, List.length_map, h.listed_length] at lengths
      omega
    have inside : keys ⊆ q.order := fun k mem => (h k).mpr ((same k).mp mem)
    exact ((List.subperm_of_subset nodup inside).perm_of_length_le size).nodup_iff.mp nodup
  · intro nodup
    exact ⟨q.order, nodup, h, h.listed_map_some⟩

variable [DecidableEq κ]

def setEntry (q : KeyedQueue κ ν) (k : κ) (v : ν) : KeyedQueue κ ν :=
  { q with entries := Function.update q.entries k (some v) }

/-- A new key joins the back of the queue; a known key keeps its place. -/
def put (q : KeyedQueue κ ν) (k : κ) (v : ν) : KeyedQueue κ ν :=
  (if q.contains k then q else q.pushBack k).setEntry k v

/-- Queues the key once more and overwrites its value. -/
def append (q : KeyedQueue κ ν) (item : κ × ν) : KeyedQueue κ ν :=
  (q.pushBack item.1).setEntry item.1 item.2

def remove (q : KeyedQueue κ ν) (k : κ) : KeyedQueue κ ν :=
  ⟨q.order.filter (· ≠ k), Function.update q.entries k none⟩

@[simp] theorem setEntry_order (q : KeyedQueue κ ν) (k : κ) (v : ν) :
    (q.setEntry k v).order = q.order := rfl

@[simp] theorem setEntry_self (q : KeyedQueue κ ν) (k : κ) (v : ν) :
    (q.setEntry k v).entries k = some v := Function.update_self ..

theorem setEntry_other (q : KeyedQueue κ ν) {k j : κ} (v : ν) (h : j ≠ k) :
    (q.setEntry k v).entries j = q.entries j := Function.update_of_ne h ..

@[simp] theorem put_self (q : KeyedQueue κ ν) (k : κ) (v : ν) :
    (q.put k v).entries k = some v := setEntry_self ..

theorem put_other (q : KeyedQueue κ ν) {k j : κ} (v : ν) (h : j ≠ k) :
    (q.put k v).entries j = q.entries j := by
  unfold put
  rw [setEntry_other _ _ h]
  split <;> rfl

theorem put_order (q : KeyedQueue κ ν) (k : κ) (v : ν) :
    (q.put k v).order = if q.contains k then q.order else q.order ++ [k] := by
  unfold put
  rw [setEntry_order]
  split <;> rfl

@[simp] theorem remove_self (q : KeyedQueue κ ν) (k : κ) : (q.remove k).entries k = none :=
  Function.update_self ..

theorem remove_other (q : KeyedQueue κ ν) {k j : κ} (h : j ≠ k) :
    (q.remove k).entries j = q.entries j := Function.update_of_ne h ..

theorem Coherent.setEntry {q : KeyedQueue κ ν} (h : q.Coherent) {k : κ} (v : ν)
    (hk : (q.entries k).isSome) : (q.setEntry k v).Coherent := by
  intro j
  by_cases eq : j = k
  · subst j
    simpa using (h k).mpr hk
  · rw [setEntry_other q v eq]
    exact h j

theorem Coherent.put {q : KeyedQueue κ ν} (h : q.Coherent) (k : κ) (v : ν) :
    (q.put k v).Coherent := by
  intro j
  rw [put_order]
  by_cases eq : j = k
  · subst j
    cases known : q.contains k with
    | true => simpa [known] using (h k).mpr known
    | false => simp
  · rw [put_other q v eq, ← h j]
    split <;> simp [eq]

theorem Coherent.remove {q : KeyedQueue κ ν} (h : q.Coherent) (k : κ) :
    (q.remove k).Coherent := by
  intro j
  by_cases eq : j = k
  · subst j
    simp [KeyedQueue.remove]
  · rw [remove_other q eq, ← h j]
    simp [KeyedQueue.remove, eq]

theorem Coherent.append {q : KeyedQueue κ ν} (h : q.Coherent) (item : κ × ν) :
    (q.append item).Coherent := by
  intro j
  change j ∈ q.order ++ [item.1] ↔ _
  by_cases eq : j = item.1
  · subst j
    simp [KeyedQueue.append]
  · rw [List.mem_append, h j, KeyedQueue.append, setEntry_other _ _ eq]
    simp [eq, pushBack]

section Build
variable (items : List (κ × ν)) (q : KeyedQueue κ ν)

theorem appends_order : (items.foldl append q).order = q.order ++ items.map Prod.fst := by
  induction items generalizing q with
  | nil => simp
  | cons item rest ih =>
    rw [List.foldl_cons, ih]
    simp [append, setEntry, pushBack]

theorem appends_coherent (h : q.Coherent) : (items.foldl append q).Coherent := by
  induction items generalizing q with
  | nil => exact h
  | cons item rest ih => exact ih _ (h.append item)

theorem appends_entry {k : κ} {v : ν} (h : (items.foldl append q).entries k = some v) :
    (k, v) ∈ items ∨ q.entries k = some v := by
  induction items generalizing q with
  | nil => exact .inr h
  | cons item rest ih =>
    rcases ih _ h with found | before
    · exact .inl (List.mem_cons_of_mem _ found)
    · by_cases eq : k = item.1
      · subst k
        have same : item.2 = v := by simpa [append] using before
        exact .inl (by rw [← same]; exact List.mem_cons_self)
      · rw [append, setEntry_other _ _ eq] at before
        exact .inr before

theorem appends_mem {item : κ × ν} (h : item ∈ items) (start : q.Coherent) :
    ((items.foldl append q).entries item.1).isSome := by
  rw [← appends_coherent items q start item.1, appends_order]
  exact List.mem_append_right _ (List.mem_map_of_mem h)

theorem appends_listed (nodup : (items.map Prod.fst).Nodup) :
    (items.foldl append empty).listed = items.map Prod.snd := by
  have each : ∀ item ∈ items, (items.foldl append empty).entries item.1 = some item.2 := by
    intro item mem
    obtain ⟨v, hv⟩ := Option.isSome_iff_exists.mp (appends_mem items empty mem coherent_empty)
    rcases appends_entry items empty hv with found | before
    · have same : (item.1, v) = item :=
        List.inj_on_of_nodup_map nodup found mem rfl
      rw [hv, ← same]
    · cases before
  unfold listed
  rw [appends_order]
  change (items.map Prod.fst).filterMap _ = _
  rw [List.filterMap_map, ← List.filterMap_eq_map]
  exact List.filterMap_congr each

end Build

theorem put_nodup {q : KeyedQueue κ ν} (h : q.Coherent) (nodup : q.order.Nodup) (k : κ) (v : ν) :
    (q.put k v).order.Nodup := by
  rw [put_order]
  cases known : q.contains k with
  | true => exact nodup
  | false =>
    have absent : k ∉ q.order := by
      rw [h k, Bool.not_eq_true]
      exact known
    simpa using List.nodup_append.mpr ⟨nodup, List.nodup_singleton k, by
      intro a ha b hb eq
      rw [List.mem_singleton] at hb
      exact absent (hb ▸ eq ▸ ha)⟩

end KeyedQueue
end ZonKey
