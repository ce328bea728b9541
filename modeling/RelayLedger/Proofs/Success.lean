import RelayLedger.Relay

/-!
When steps on the world succeed. A sequence of steps succeeds if each of them does, and what
one of them found is what the next one goes on with; so a program that succeeded can be taken
apart into its checks and its changes without being unfolded twice.
-/
namespace RelayLedger.Relay

variable {α β : Type} {w after : World}

theorem run_bind_ok_iff {x : Relay α} {f : α → Relay β} {b : β} :
    (x >>= f).run w = (.ok b, after) ↔
      ∃ a mid, x.run w = (.ok a, mid) ∧ (f a).run mid = (.ok b, after) := by
  rw [run_bind]
  rcases x.run w with ⟨_ | a, mid⟩
  · simp
  · constructor
    · exact fun h => ⟨a, mid, rfl, h⟩
    · rintro ⟨_, _, h, hf⟩
      cases h
      exact hf

theorem run_map_ok_iff {x : Relay α} {f : α → β} {b : β} :
    (f <$> x).run w = (.ok b, after) ↔ ∃ a, x.run w = (.ok a, after) ∧ f a = b := by
  rw [← bind_pure_comp, run_bind_ok_iff]
  constructor
  · rintro ⟨a, mid, h, hf⟩
    cases hf
    exact ⟨a, h, rfl⟩
  · rintro ⟨a, h, rfl⟩
    exact ⟨a, after, h, rfl⟩

theorem run_discard (x : Relay α) (w : World) :
    (discard x).run w = ((x.run w).1.map fun _ => PUnit.unit, (x.run w).2) := by
  change ((fun _ => PUnit.unit) <$> x).run w = _
  rw [run_map]

theorem run_discard_ok_iff {x : Relay α} {u : PUnit} :
    (discard x).run w = (.ok u, after) ↔ ∃ a, x.run w = (.ok a, after) := by
  change ((fun _ => PUnit.unit) <$> x).run w = (.ok u, after) ↔ _
  rw [run_map_ok_iff]
  simp only [and_true]

theorem run_pure_ok_iff {a b : α} :
    (pure a : Relay α).run w = (.ok b, after) ↔ a = b ∧ w = after := by
  simp

theorem run_require_ok_iff {c : Bool} {why : Refusal} {u : Unit} :
    (require c why).run w = (.ok u, after) ↔ c = true ∧ w = after := by
  cases c <;> simp [require]

theorem run_ensure_ok_iff {c : Bool} {line : LogLine} {why : Refusal} {u : Unit} :
    (ensure c line why).run w = (.ok u, after) ↔ c = true ∧ w = after := by
  cases c <;> simp [ensure]

theorem run_demand_ok_iff {x : Option α} {why : Refusal} {a : α} :
    (demand x why).run w = (.ok a, after) ↔ x = some a ∧ w = after := by
  cases x <;> simp [demand]

theorem run_expect_ok_iff {x : Option α} {line : LogLine} {why : Refusal} {a : α} :
    (expect x line why).run w = (.ok a, after) ↔ x = some a ∧ w = after := by
  cases x <;> simp [expect]

theorem run_settle_ok_iff {x : Except Refusal α} {a : α} :
    (settle x).run w = (.ok a, after) ↔ x = .ok a ∧ w = after := by
  cases x <;> simp [settle]

theorem mapError_ok_iff {ε ε' : Type} {x : Except ε α} {f : ε → ε'} {a : α} :
    x.mapError f = .ok a ↔ x = .ok a := by
  cases x with
  | ok b =>
    change (Except.ok b : Except ε' α) = .ok a ↔ _
    simp only [Except.ok.injEq]
  | error e =>
    change (Except.error (f e) : Except ε' α) = .ok a ↔ _
    simp only [reduceCtorEq]

/-! Reading and writing always succeed. -/

theorem run_get : (get : Relay World).run w = (.ok w, w) := (rfl)

theorem run_log {line : LogLine} :
    (log line).run w = (.ok (), { w with host.log := w.host.log ++ [line] }) := (rfl)

end RelayLedger.Relay
