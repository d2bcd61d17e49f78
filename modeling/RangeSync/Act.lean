/-!
# Actions

An action works on a state and answers or stops. It stops with a cause, or because an internal
check fails; either way the state stays as the action left it, so that what a failed run has done
can be told. `Act.within` runs an action on a part of the state.

`Act.runOn` is the view of an action: what it answers and which state it leaves. The lemmas at the
end say what each way to make an action does to it.
-/

namespace RangeSync

/-- Why an action stops. -/
inductive Stop (ε : Type)
  /-- It failed, for a cause that is reported. -/
  | failed (cause : ε)
  /-- An internal check failed, such as a sum that left its 64 bits. -/
  | crashed
deriving DecidableEq, Repr

/-- The same stop with another cause. -/
def Stop.map {ε δ : Type} (f : ε → δ) : Stop ε → Stop δ
  | .failed cause => .failed (f cause)
  | .crashed => .crashed

/-- An action on a state `σ` that may fail with an `ε`. -/
abbrev Act (σ ε α : Type) := ExceptT ε (StateM σ) α

namespace Act

variable {σ τ ε δ α : Type}

/-- An action on a part of the state, with its failures turned into those of the whole. -/
def within (get : τ → σ) (put : σ → τ → τ) (wrap : ε → δ) (act : Act σ ε α) : Act τ δ α :=
  ExceptT.mk fun t =>
    let (result, s) := (ExceptT.run act).run (get t)
    (result.mapError wrap, put s t)

/-- Run an action on a state. -/
def runOn (act : Act σ ε α) (s : σ) : Except ε α × σ :=
  (ExceptT.run act).run s

/-- The value of a computation that needs no state. -/
def ofExcept (wrap : ε → δ) (result : Except ε α) : Act σ δ α :=
  ExceptT.mk fun s => (result.mapError wrap, s)

/-- Stop because an internal check fails. -/
def crash : Act σ (Stop ε) α :=
  throw .crashed

/-- Fail with a cause. -/
def fail (cause : ε) : Act σ (Stop ε) α :=
  throw (.failed cause)

/-- The value, if there is one; otherwise an internal check has failed. -/
def orCrash (value : Option α) : Act σ (Stop ε) α :=
  match value with
  | some a => pure a
  | none => crash

/-! ### What actions do -/

@[simp] theorem runOn_pure (a : α) (s : σ) :
    runOn (pure a : Act σ ε α) s = (.ok a, s) := rfl

@[simp] theorem runOn_throw (cause : ε) (s : σ) :
    runOn (throw cause : Act σ ε α) s = (.error cause, s) := rfl

@[simp] theorem runOn_get (s : σ) :
    runOn (get : Act σ ε σ) s = (.ok s, s) := rfl

@[simp] theorem runOn_set (new s : σ) :
    runOn (set new : Act σ ε PUnit) s = (.ok ⟨⟩, new) := rfl

@[simp] theorem runOn_modify (f : σ → σ) (s : σ) :
    runOn (modify f : Act σ ε PUnit) s = (.ok ⟨⟩, f s) := rfl

@[simp] theorem runOn_ofExcept (wrap : ε → δ) (result : Except ε α) (s : σ) :
    runOn (ofExcept wrap result) s = (result.mapError wrap, s) := rfl

/-- The second action runs on the state that the first one leaves, if that one answers. -/
theorem runOn_bind {β : Type} (act : Act σ ε α) (next : α → Act σ ε β) (s : σ) :
    runOn (act >>= next) s =
      match runOn act s with
      | (.ok a, t) => runOn (next a) t
      | (.error cause, t) => (.error cause, t) := by
  change (ExceptT.bindCont next (runOn act s).1) (runOn act s).2 = _
  generalize runOn act s = result
  obtain ⟨answer, t⟩ := result
  cases answer <;> rfl

/-- After a failure, the second action runs on the state that the first one leaves. -/
theorem runOn_tryCatch (act : Act σ ε α) (handle : ε → Act σ ε α) (s : σ) :
    runOn (tryCatch act handle) s =
      match runOn act s with
      | (.ok a, t) => (.ok a, t)
      | (.error cause, t) => runOn (handle cause) t := by
  change (match (runOn act s).1 with
    | .ok a => (pure (.ok a) : StateM σ (Except ε α))
    | .error cause => handle cause) (runOn act s).2 = _
  generalize runOn act s = result
  obtain ⟨answer, t⟩ := result
  cases answer <;> rfl

/-- An action on a part of the state leaves the rest to `put`. -/
theorem runOn_within (get : τ → σ) (put : σ → τ → τ) (wrap : ε → δ) (act : Act σ ε α) (t : τ) :
    runOn (act.within get put wrap) t =
      ((runOn act (get t)).1.mapError wrap, put (runOn act (get t)).2 t) := rfl

end Act
end RangeSync
