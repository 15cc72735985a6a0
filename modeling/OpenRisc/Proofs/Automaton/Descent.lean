import OpenRisc.Proofs.Automaton.Budget

set_option autoImplicit false

namespace OpenRisc

theorem Pattern.getLsbD_of_accepts {pattern : Pattern} {raw : Word} (accepted : pattern.accepts raw)
    {p : Nat} (fixed : pattern.mask.getLsbD p = true) :
    raw.getLsbD p = pattern.value.getLsbD p := by
  have same := (pattern.accepts_iff raw).mp accepted
  have bit := congrArg (fun word => word.getLsbD p) same
  simpa only [BitVec.getLsbD_and, fixed, Bool.and_true] using bit

namespace Tree

inductive Leads (raw : Word) : Tree → (branches : Nat) → (result : Option Nat) → Prop where
  | invalid : Leads raw .invalid 0 none
  | leaf (row : Nat) : Leads raw (.leaf row) 0 (some row)
  | branch {test : Span} {children : List Tree} {child : Tree} {branches : Nat}
      {result : Option Nat} (selected : children[(test.read raw).toNat]? = some child)
      (rest : Leads raw child branches result) :
      Leads raw (.branch test children) (branches + 1) result

theorem Fits.read_eq {available : Word} {group : List Entry} {test : Span}
    (fits : Fits available group test) {entry : Entry} (member : entry ∈ group) {raw : Word}
    (accepted : entry.pattern.accepts raw) : test.read raw = test.read entry.pattern.value := by
  rw [Span.read_eq_read_iff]
  intro p within
  exact Pattern.getLsbD_of_accepts accepted (fits.fixed entry member p within)

theorem Splits.leads {available : Word} {group : List Entry} {tree : Tree}
    (split : Splits available group tree) (raw : Word) :
    ∃ branches result, Leads raw tree branches result ∧ branches ≤ available.ones.card ∧
      (∀ row, result = some row → ∃ entry ∈ group, entry.row = row) ∧
      ∀ entry ∈ group, entry.pattern.accepts raw → result = some entry.row := by
  induction split with
  | invalid available => exact ⟨0, none, .invalid, Nat.zero_le _, by simp, by simp⟩
  | leaf available entry =>
    refine ⟨0, some entry.row, .leaf _, Nat.zero_le _, ?_, ?_⟩
    · rintro row same
      exact ⟨entry, List.mem_singleton_self _, Option.some.inj same⟩
    · rintro other member _
      rw [List.mem_singleton.mp member]
  | @branch available group test children several chosen full parts ih =>
    have fits := fits_of_widestRun? chosen
    have inside : (test.read raw).toNat < children.length := full ▸ test.toNat_read_lt raw
    obtain ⟨branches, result, leads, short, known, found⟩ :=
      ih _ _ (List.getElem?_eq_getElem inside)
    refine ⟨branches + 1, result, .branch (List.getElem?_eq_getElem inside) leads, ?_, ?_, ?_⟩
    · have spent := fits.card_ones
      have nonempty := fits.nonempty
      omega
    · intro row same
      obtain ⟨entry, member, row_is⟩ := known row same
      exact ⟨entry, (mem_selected.mp member).1, row_is⟩
    · intro entry member accepted
      refine found entry (mem_selected.mpr ⟨member, ?_⟩) accepted
      rw [fits.read_eq member accepted]

end Tree

end OpenRisc
