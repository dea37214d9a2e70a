/-!
# Results and errors

What is done in steps succeeds exactly if each of the steps does, and what it gives is then what the
last of them gives. It fails with the error of the first step that does.

## Main results

* `bind_eq_ok`, `map_eq_ok`, `mapError_eq_ok`: when a step behind another one succeeds;
* `bind_eq_error`, `mapError_eq_error`: when one of two steps fails;
* `exists_of_mapM_eq_ok`: what is made of a list is made of its items.
-/

namespace RunTrace

theorem bind_eq_ok {α β ε : Type} {result : Except ε α} {next : α → Except ε β} {value : β} :
    (result >>= next) = .ok value ↔ ∃ first, result = .ok first ∧ next first = .ok value := by
  cases result <;> simp [bind, Except.bind]

theorem map_eq_ok {α β ε : Type} {result : Except ε α} {f : α → β} {value : β} :
    (f <$> result) = .ok value ↔ ∃ first, result = .ok first ∧ f first = value := by
  cases result <;> simp [Functor.map, Except.map]

theorem mapError_eq_ok {α ε ε' : Type} {result : Except ε α} {f : ε → ε'} {value : α} :
    result.mapError f = .ok value ↔ result = .ok value := by
  cases result with
  | error error => exact iff_of_false (fun h => nomatch h) (fun h => nomatch h)
  | ok first =>
    exact ⟨fun h => congrArg Except.ok (Except.ok.inj h),
      fun h => congrArg Except.ok (Except.ok.inj h)⟩

theorem bind_eq_error {α β ε : Type} {result : Except ε α} {next : α → Except ε β} {error : ε} :
    (result >>= next) = .error error ↔
      result = .error error ∨ ∃ first, result = .ok first ∧ next first = .error error := by
  cases result <;> simp [bind, Except.bind]

theorem mapError_eq_error {α ε ε' : Type} {result : Except ε α} {f : ε → ε'} {error : ε'} :
    result.mapError f = .error error ↔ ∃ first, result = .error first ∧ f first = error := by
  cases result with
  | error first =>
    constructor
    · exact fun h => ⟨first, rfl, Except.error.inj h⟩
    · rintro ⟨other, hother, rfl⟩
      exact congrArg (fun error => Except.error (f error)) (Except.error.inj hother)
  | ok value =>
    refine iff_of_false (fun h => nomatch h) ?_
    rintro ⟨first, hfirst, -⟩
    exact nomatch hfirst

/-- Each item of a list that is read has been read. -/
theorem exists_of_mapM_eq_ok {α β ε : Type} {read : β → Except ε α} {items : List β}
    {values : List α} (h : items.mapM read = .ok values) :
    ∀ value ∈ values, ∃ item, read item = .ok value := by
  induction items generalizing values with
  | nil =>
    obtain rfl : [] = values := Except.ok.inj h
    exact fun value hmem => absurd hmem List.not_mem_nil
  | cons item items ih =>
    rw [List.mapM_cons] at h
    obtain ⟨first, hfirst, h⟩ := bind_eq_ok.1 h
    obtain ⟨more, hmore, h⟩ := bind_eq_ok.1 h
    obtain rfl : first :: more = values := Except.ok.inj h
    exact List.forall_mem_cons.2 ⟨⟨item, hfirst⟩, ih hmore⟩

end RunTrace
