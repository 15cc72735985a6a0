set_option autoImplicit false

namespace OpenRisc

structure Selects {Item : Type} (chosen : List Nat) (whole part : List Item) : Prop where
  distinct : chosen.Nodup
  count : part.length = chosen.length
  same : ∀ k i : Nat, chosen[k]? = some i → part[k]? = whole[i]?

structure Reorders {Item : Type} (chosen : List Nat) (whole part : List Item) : Prop
    extends Selects chosen whole part where
  all : ∀ i < whole.length, i ∈ chosen

namespace Selects

def origin (chosen : List Nat) (k : Nat) : Nat :=
  chosen.getD k 0

theorem origin_eq {chosen : List Nat} {k i : Nat} (position : chosen[k]? = some i) :
    origin chosen k = i := by
  simp [origin, position]

variable {Item Other : Type} {chosen : List Nat} {whole part : List Item}

theorem chosen_of_item (selects : Selects chosen whole part) {k : Nat} {item : Item}
    (present : part[k]? = some item) : ∃ i, chosen[k]? = some i ∧ whole[i]? = some item := by
  have inside : k < chosen.length := by
    rw [← selects.count]
    exact (List.getElem?_eq_some_iff.mp present).1
  have position := List.getElem?_eq_getElem inside
  exact ⟨chosen[k], position, selects.same k _ position ▸ present⟩

theorem item_of_chosen (selects : Selects chosen whole part) {k i : Nat}
    (position : chosen[k]? = some i) : ∃ item, part[k]? = some item ∧ whole[i]? = some item := by
  have inside : k < part.length := by
    rw [selects.count]
    exact (List.getElem?_eq_some_iff.mp position).1
  have present := List.getElem?_eq_getElem inside
  exact ⟨part[k], present, selects.same k i position ▸ present⟩

theorem origin_of_lt (selects : Selects chosen whole part) {k : Nat} (inside : k < part.length) :
    chosen[k]? = some (origin chosen k) := by
  have within : k < chosen.length := selects.count ▸ inside
  simp [origin, within]

theorem origin_inj (selects : Selects chosen whole part) {k l : Nat} (inside : k < part.length)
    (also : l < part.length) (same : origin chosen k = origin chosen l) : k = l := by
  have within : k < chosen.length := selects.count ▸ inside
  apply (List.getElem?_inj within selects.distinct).mp
  rw [selects.origin_of_lt inside, selects.origin_of_lt also, same]

theorem subset (selects : Selects chosen whole part) : part ⊆ whole := by
  intro item member
  obtain ⟨k, present⟩ := List.mem_iff_getElem?.mp member
  obtain ⟨i, _, original⟩ := selects.chosen_of_item present
  exact List.mem_of_getElem? original

theorem of_map (distinct : chosen.Nodup)
    (taken : part.map some = chosen.map fun i => whole[i]?) : Selects chosen whole part where
  distinct := distinct
  count := by simpa using congrArg List.length taken
  same k i position := by
    have items := congrArg (fun list => list[k]?) taken
    simp only [List.getElem?_map, position, Option.map_some] at items
    obtain ⟨item, present, original⟩ := Option.map_eq_some_iff.mp items
    rw [present, original]

theorem map (selects : Selects chosen whole part) (relabel : Item → Other) :
    Selects chosen (whole.map relabel) (part.map relabel) where
  distinct := selects.distinct
  count := by rw [List.length_map, selects.count]
  same k i position := by rw [List.getElem?_map, List.getElem?_map, selects.same k i position]

theorem single {i : Nat} {item : Item} (present : whole[i]? = some item) :
    Selects [i] whole [item] where
  distinct := by simp
  count := rfl
  same k j position := by
    cases k with
    | zero =>
      rw [← Option.some.inj position, present]
      rfl
    | succ k => simp at position

end Selects

end OpenRisc
