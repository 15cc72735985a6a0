set_option autoImplicit false

namespace OpenRisc.Traversal

variable {Item Value Failure : Type}

theorem bind_eq_ok_iff {first : Except Failure Item} {next : Item → Except Failure Value}
    {value : Value} : (first >>= next) = .ok value ↔
      ∃ item, first = .ok item ∧ next item = .ok value := by
  cases first <;> simp [bind, Except.bind]

theorem mapError_eq_ok_iff {Cause : Type} {relabel : Failure → Cause} {first : Except Failure Item}
    {item : Item} : first.mapError relabel = .ok item ↔ first = .ok item := by
  cases first with
  | error failure => exact ⟨nofun, nofun⟩
  | ok other =>
    exact ⟨fun same => congrArg Except.ok (Except.ok.inj same),
      fun same => congrArg Except.ok (Except.ok.inj same)⟩

theorem exists_of_isOk {first : Except Failure Item} (succeeds : first.isOk = true) :
    ∃ item, first = .ok item := by
  cases first with
  | error failure => simp [Except.isOk, Except.toBool] at succeeds
  | ok item => exact ⟨item, rfl⟩

theorem mapM_eq_ok_iff (read : Item → Except Failure Value) (items : List Item)
    (values : List Value) :
    items.mapM read = .ok values ↔ items.map read = values.map .ok := by
  induction items generalizing values with
  | nil => cases values <;> simp [pure, Except.pure]
  | cons item rest ih =>
    rw [List.mapM_cons]
    cases first : read item with
    | error failure => cases values <;> simp [bind, Except.bind, first]
    | ok value =>
      cases later : rest.mapM read with
      | error failure =>
        cases values <;> simp [bind, Except.bind, first, ← ih, later]
      | ok tail =>
        cases values <;> simp [bind, Except.bind, pure, Except.pure, first, ← ih, later]

theorem length_of_mapM {read : Item → Except Failure Value} {items : List Item}
    {values : List Value} (done : items.mapM read = .ok values) :
    values.length = items.length := by
  simpa using (congrArg List.length ((mapM_eq_ok_iff read items values).mp done)).symm

theorem read_of_mapM {read : Item → Except Failure Value} {items : List Item}
    {values : List Value} (done : items.mapM read = .ok values) {i : Nat} {item : Item}
    (present : items[i]? = some item) :
    ∃ value, values[i]? = some value ∧ read item = .ok value := by
  have same := congrArg (fun list => list[i]?) ((mapM_eq_ok_iff read items values).mp done)
  simp only [List.getElem?_map, present, Option.map_some] at same
  obtain ⟨value, found, equal⟩ := Option.map_eq_some_iff.mp same.symm
  exact ⟨value, found, equal.symm⟩

theorem item_of_mapM {read : Item → Except Failure Value} {items : List Item}
    {values : List Value} (done : items.mapM read = .ok values) {i : Nat} {value : Value}
    (present : values[i]? = some value) :
    ∃ item, items[i]? = some item ∧ read item = .ok value := by
  have same := congrArg (fun list => list[i]?) ((mapM_eq_ok_iff read items values).mp done)
  simp only [List.getElem?_map, present, Option.map_some] at same
  exact Option.map_eq_some_iff.mp same

theorem item_of_mem_mapM {read : Item → Except Failure Value} {items : List Item}
    {values : List Value} (done : items.mapM read = .ok values) {value : Value}
    (member : value ∈ values) : ∃ item ∈ items, read item = .ok value := by
  apply List.mem_map.mp
  rw [(mapM_eq_ok_iff read items values).mp done]
  exact List.mem_map_of_mem member

theorem exists_of_forall_ok {read : Item → Except Failure Value} {items : List Item}
    (succeeds : ∀ item ∈ items, ∃ value, read item = .ok value) :
    ∃ values, items.mapM read = .ok values := by
  induction items with
  | nil => exact ⟨[], rfl⟩
  | cons item rest ih =>
    obtain ⟨⟨value, here⟩, later⟩ := List.forall_mem_cons.mp succeeds
    obtain ⟨values, done⟩ := ih later
    exact ⟨value :: values, by simp [here, done, bind, Except.bind, pure, Except.pure]⟩

theorem exists_first {qualifies : Item → Prop} {items : List Item}
    (fails : ¬ ∀ item ∈ items, qualifies item) :
    ∃ front item back, items = front ++ item :: back ∧ (∀ other ∈ front, qualifies other) ∧
      ¬ qualifies item := by
  induction items with
  | nil => simp at fails
  | cons item rest ih =>
    by_cases here : qualifies item
    · obtain ⟨front, other, back, rfl, before, refused⟩ :=
        ih fun later => fails (List.forall_mem_cons.mpr ⟨here, later⟩)
      exact ⟨item :: front, other, back, rfl, List.forall_mem_cons.mpr ⟨here, before⟩, refused⟩
    · exact ⟨[], item, rest, rfl, by simp, here⟩

theorem mapM_eq_error_iff {read : Item → Except Failure Value} {items : List Item}
    {failure : Failure} :
    items.mapM read = .error failure ↔
      ∃ front item back, items = front ++ item :: back ∧
        (∀ other ∈ front, ∃ value, read other = .ok value) ∧ read item = .error failure := by
  constructor
  · intro failed
    induction items with
    | nil => simp [pure, Except.pure] at failed
    | cons item rest ih =>
      rw [List.mapM_cons] at failed
      cases first : read item with
      | error cause =>
        simp only [first, bind, Except.bind, Except.error.injEq] at failed
        exact ⟨[], item, rest, rfl, by simp, failed ▸ first⟩
      | ok value =>
        cases later : rest.mapM read with
        | error cause =>
          simp only [first, later, bind, Except.bind, Except.error.injEq] at failed
          obtain ⟨front, other, back, rfl, succeed, refused⟩ := ih (failed ▸ later)
          exact ⟨item :: front, other, back, rfl,
            List.forall_mem_cons.mpr ⟨⟨value, first⟩, succeed⟩, refused⟩
        | ok tail => simp [first, later, bind, Except.bind, pure, Except.pure] at failed
  · rintro ⟨front, item, back, rfl, succeed, refused⟩
    obtain ⟨values, done⟩ := exists_of_forall_ok succeed
    simp [List.mapM_append, List.mapM_cons, done, refused, bind, Except.bind]

theorem error_of_mapM {read : Item → Except Failure Value} {items : List Item}
    {failure : Failure} (failed : items.mapM read = .error failure) :
    ∃ item ∈ items, read item = .error failure := by
  obtain ⟨front, item, back, rfl, _, refused⟩ := mapM_eq_error_iff.mp failed
  exact ⟨item, by simp, refused⟩

inductive Matches {Other Cause : Type} (relabel : Value → Other) (alike : Failure → Cause → Prop) :
    Except Failure Value → Except Cause Other → Prop where
  | ok (value : Value) : Matches relabel alike (.ok value) (.ok (relabel value))
  | error {failure : Failure} {cause : Cause} (same : alike failure cause) :
      Matches relabel alike (.error failure) (.error cause)

theorem Matches.finish {Other Cause Result Wrapped : Type} {relabel : Value → Other}
    {alike : Failure → Cause → Prop} {first : Except Failure Value} {second : Except Cause Other}
    (same : Matches relabel alike first second) {close : Value → Result} {reclose : Other → Wrapped}
    {rewrap : Result → Wrapped} (wraps : ∀ value, reclose (relabel value) = rewrap (close value)) :
    Matches rewrap alike (first >>= fun value => pure (close value))
      (second >>= fun other => pure (reclose other)) := by
  cases same with
  | error same => exact .error same
  | ok value =>
    have done : Matches rewrap alike (.ok (close value)) (.ok (rewrap (close value))) := .ok _
    rw [← wraps value] at done
    exact done

theorem matches_mapM {Other Cause : Type} {relabel : Value → Other}
    {alike : Failure → Cause → Prop} {read : Item → Except Failure Value}
    {reread : Item → Except Cause Other} {items : List Item}
    (each : ∀ item ∈ items, Matches relabel alike (read item) (reread item)) :
    Matches (List.map relabel) alike (items.mapM read) (items.mapM reread) := by
  induction items with
  | nil => exact .ok []
  | cons item rest ih =>
    have first := each item List.mem_cons_self
    have later := ih fun other member => each other (List.mem_cons_of_mem _ member)
    rw [List.mapM_cons, List.mapM_cons]
    generalize read item = here, reread item = there at first ⊢
    generalize rest.mapM read = values, rest.mapM reread = others at later ⊢
    cases first with
    | error same => exact .error same
    | ok value =>
      cases later with
      | error same => exact .error same
      | ok values => exact .ok (value :: values)

end OpenRisc.Traversal
