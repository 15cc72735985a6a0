import Mathlib.Data.Finset.Card
import OpenRisc.Proofs.Automaton.Separability
import OpenRisc.Proofs.Selection

set_option autoImplicit false

namespace OpenRisc.Automaton

theorem Separable.select {patterns part : List Pattern} (separable : Separable patterns)
    {chosen : List Nat} (selects : Selects chosen patterns part) : Separable part := by
  intro members inside several
  have position {k : Nat} (member : k ∈ members) := selects.origin_of_lt (inside k member)
  have injective : Set.InjOn (Selects.origin chosen) members :=
    fun k member l also => selects.origin_inj (inside k member) (inside l also)
  have known : ∀ row ∈ members.image (Selects.origin chosen), row < patterns.length := by
    intro row image
    obtain ⟨k, member, rfl⟩ := Finset.mem_image.mp image
    obtain ⟨pattern, _, present⟩ := selects.item_of_chosen (position member)
    exact (List.getElem?_eq_some_iff.mp present).1
  obtain ⟨p, fixed, first, one, second, two, left, right, here, there, differ⟩ :=
    separable _ known (by rwa [Finset.card_image_of_injOn injective])
  have pattern {k : Nat} (member : k ∈ members) : part[k]? = patterns[Selects.origin chosen k]? :=
    selects.same k _ (position member)
  obtain ⟨k, member, rfl⟩ := Finset.mem_image.mp one
  obtain ⟨l, also, rfl⟩ := Finset.mem_image.mp two
  refine ⟨p, fun row present => ?_, k, member, l, also, left, right, ?_, ?_, differ⟩
  · rw [pattern present]
    exact fixed _ (Finset.mem_image_of_mem _ present)
  · rwa [pattern member]
  · rwa [pattern also]

theorem build_select {patterns part : List Pattern} {automaton : Automaton}
    (done : build patterns = .ok automaton) {chosen : List Nat}
    (selects : Selects chosen patterns part) (nonempty : part ≠ []) :
    ∃ small, build part = .ok small := by
  obtain ⟨_, _, root, built, _⟩ := build_eq_ok_iff.mp done
  have separable := (separable_of_separated (separated_of_tree built)).select selects
  obtain ⟨small, grown⟩ := exists_tree_of_separable separable
  exact ⟨ofTree small, build_eq_ok_iff.mpr ⟨nonempty, separable.disjoint, small, grown, rfl⟩⟩

end OpenRisc.Automaton
