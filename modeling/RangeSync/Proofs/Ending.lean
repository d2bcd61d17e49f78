import RangeSync.Act

/-!
# How actions end

An action that is run on a state answers or stops, and either way it leaves a state behind. What is
proved about the actions of this library is always of one form,
`RangeSync.Act.Ends`: run on this state, the action answers so, or it stops so. Both halves are
stated at once, because the interesting statements are about runs that fail: the trees such a run
went through, and what it left behind.

The lemmas here take an action apart. Each way to make an action turns a statement about the whole
into one about its parts, so that an action is followed step by step, with
`RangeSync.Act.Ends.mono` to fit the statement about a step to what is needed after it.

Not every statement needs an action to be followed. `RangeSync.Act.GoesAlong` says that the state
that an action leaves is related to the one that it started from, wherever that is and however the
action ends. If the relation chains (`RangeSync.Act.Chains`), it is enough to see that of every
step. `RangeSync.Act.Leaves` is the most frequent case: a part of the state is the same at the end.

Two runs are compared by `RangeSync.Act.Alike`: they answer the same, or stop for the same cause,
and the states that they leave are related. An action that cannot tell related states apart
(`RangeSync.Act.Respects`) is made of steps that cannot.
-/

namespace RangeSync.Act

variable {σ τ ε δ α β : Type}

/-- **How an action ends** that is run on `s`: it answers with `post`, or it stops with `fail`;
both say something of the state that is left. -/
def Ends (act : Act σ ε α) (s : σ) (post : α → σ → Prop) (fail : ε → σ → Prop) : Prop :=
  match runOn act s with
  | (.ok a, t) => post a t
  | (.error cause, t) => fail cause t

variable {s : σ} {post : α → σ → Prop} {fail : ε → σ → Prop}

/-! ### What an ending says of a run -/

theorem ends_of_ok {act : Act σ ε α} {a : α} {t : σ} (h : runOn act s = (.ok a, t)) :
    act.Ends s post fail ↔ post a t := by
  rw [Ends, h]

theorem ends_of_error {act : Act σ ε α} {cause : ε} {t : σ}
    (h : runOn act s = (.error cause, t)) : act.Ends s post fail ↔ fail cause t := by
  rw [Ends, h]

theorem Ends.of_ok {act : Act σ ε α} {a : α} {t : σ} (h : act.Ends s post fail)
    (hrun : runOn act s = (.ok a, t)) : post a t :=
  (ends_of_ok hrun).mp h

theorem Ends.of_error {act : Act σ ε α} {cause : ε} {t : σ} (h : act.Ends s post fail)
    (hrun : runOn act s = (.error cause, t)) : fail cause t :=
  (ends_of_error hrun).mp h

/-- An action ends as it ends: the ending that says everything. -/
theorem ends_self (act : Act σ ε α) (s : σ) :
    act.Ends s (fun a t => runOn act s = (.ok a, t)) fun cause t =>
      runOn act s = (.error cause, t) := by
  rcases h : runOn act s with ⟨cause | a, t⟩
  · exact (ends_of_error h).mpr rfl
  · exact (ends_of_ok h).mpr rfl

/-- **An ending may be weakened**, in what it says of an answer and of a stop. -/
theorem Ends.mono {act : Act σ ε α} {post' : α → σ → Prop} {fail' : ε → σ → Prop}
    (h : act.Ends s post fail) (hpost : ∀ a t, post a t → post' a t)
    (hfail : ∀ cause t, fail cause t → fail' cause t) : act.Ends s post' fail' := by
  rcases hrun : runOn act s with ⟨cause | a, t⟩
  · exact (ends_of_error hrun).mpr (hfail _ _ (h.of_error hrun))
  · exact (ends_of_ok hrun).mpr (hpost _ _ (h.of_ok hrun))

/-- However an action ends, what holds anyway holds then. -/
theorem ends_always (act : Act σ ε α) (s : σ) {p : Prop} (h : p) :
    act.Ends s (fun _ _ => p) fun _ _ => p :=
  (ends_self act s).mono (fun _ _ _ => h) fun _ _ _ => h

/-- Two endings of one action are one. -/
theorem Ends.and {act : Act σ ε α} {post' : α → σ → Prop} {fail' : ε → σ → Prop}
    (h : act.Ends s post fail) (h' : act.Ends s post' fail') :
    act.Ends s (fun a t => post a t ∧ post' a t) fun cause t => fail cause t ∧ fail' cause t := by
  rcases hrun : runOn act s with ⟨cause | a, t⟩
  · exact (ends_of_error hrun).mpr ⟨h.of_error hrun, h'.of_error hrun⟩
  · exact (ends_of_ok hrun).mpr ⟨h.of_ok hrun, h'.of_ok hrun⟩

/-- An action that cannot stop answers. -/
theorem Ends.exists_ok {act : Act σ ε α} (h : act.Ends s post fun _ _ => False) :
    ∃ a t, runOn act s = (.ok a, t) ∧ post a t := by
  rcases hrun : runOn act s with ⟨cause | a, t⟩
  · exact (h.of_error hrun).elim
  · exact ⟨a, t, rfl, h.of_ok hrun⟩

/-- An action that cannot answer stops. -/
theorem Ends.exists_error {act : Act σ ε α} (h : act.Ends s (fun _ _ => False) fail) :
    ∃ cause t, runOn act s = (.error cause, t) ∧ fail cause t := by
  rcases hrun : runOn act s with ⟨cause | a, t⟩
  · exact ⟨cause, t, rfl, h.of_error hrun⟩
  · exact (h.of_ok hrun).elim

/-- What holds of the state however an action ends. -/
theorem Ends.state {act : Act σ ε α} {P : σ → Prop}
    (h : act.Ends s (fun _ t => P t) fun _ t => P t) : P (runOn act s).2 := by
  rcases hrun : runOn act s with ⟨cause | a, t⟩
  · exact h.of_error hrun
  · exact h.of_ok hrun

/-! ### Taking an action apart -/

@[simp] theorem ends_pure {a : α} : (pure a : Act σ ε α).Ends s post fail ↔ post a s :=
  Iff.rfl

@[simp] theorem ends_throw {cause : ε} :
    (throw cause : Act σ ε α).Ends s post fail ↔ fail cause s :=
  Iff.rfl

@[simp] theorem ends_get {post : σ → σ → Prop} :
    (get : Act σ ε σ).Ends s post fail ↔ post s s :=
  Iff.rfl

@[simp] theorem ends_set {new : σ} {post : PUnit → σ → Prop} :
    (set new : Act σ ε PUnit).Ends s post fail ↔ post ⟨⟩ new :=
  Iff.rfl

@[simp] theorem ends_modify {f : σ → σ} {post : PUnit → σ → Prop} :
    (modify f : Act σ ε PUnit).Ends s post fail ↔ post ⟨⟩ (f s) :=
  Iff.rfl

/-- **One action after another**: the second one starts where the first one answers. -/
@[simp] theorem ends_bind {act : Act σ ε α} {next : α → Act σ ε β} {post : β → σ → Prop} :
    (act >>= next).Ends s post fail ↔
      act.Ends s (fun a t => (next a).Ends t post fail) fail := by
  rw [Ends, Ends, runOn_bind]
  rcases runOn act s with ⟨cause | a, t⟩ <;> rfl

/-- An action that is left out in some cases, before another one. -/
theorem ends_when {p : Prop} [Decidable p] {act : Act σ ε PUnit} {next : PUnit → Act σ ε β}
    {post : β → σ → Prop} :
    (if p then act >>= next else next ⟨⟩).Ends s post fail ↔
      (if p then act else pure ⟨⟩).Ends s (fun a t => (next a).Ends t post fail) fail := by
  split
  · exact ends_bind
  · exact Iff.rfl

/-- An action with a handler: the handler starts where the action stops. -/
@[simp] theorem ends_tryCatch {act : Act σ ε α} {handle : ε → Act σ ε α} :
    (tryCatch act handle : Act σ ε α).Ends s post fail ↔
      act.Ends s post fun cause t => (handle cause).Ends t post fail := by
  rw [Ends, Ends, runOn_tryCatch]
  rcases runOn act s with ⟨cause | a, t⟩ <;> rfl

/-- An action on a part of the state. -/
theorem ends_within {get : τ → σ} {put : σ → τ → τ} {wrap : ε → δ} {act : Act σ ε α} {t : τ}
    {post : α → τ → Prop} {fail : δ → τ → Prop} :
    (act.within get put wrap).Ends t post fail ↔
      act.Ends (get t) (fun a s => post a (put s t)) fun cause s =>
        fail (wrap cause) (put s t) := by
  rw [Ends, Ends, runOn_within]
  rcases runOn act (get t) with ⟨cause | a, s⟩ <;> rfl

theorem ends_ofExcept {wrap : ε → δ} {result : Except ε α} {fail : δ → σ → Prop} :
    (ofExcept wrap result : Act σ δ α).Ends s post fail ↔
      match result with
      | .ok a => post a s
      | .error cause => fail (wrap cause) s := by
  cases result <;> rfl

variable {fail : Stop ε → σ → Prop}

@[simp] theorem ends_fail {cause : ε} :
    (Act.fail cause : Act σ (Stop ε) α).Ends s post fail ↔ fail (.failed cause) s :=
  Iff.rfl

@[simp] theorem ends_crash :
    (crash : Act σ (Stop ε) α).Ends s post fail ↔ fail .crashed s :=
  Iff.rfl

theorem ends_orCrash {value : Option α} :
    (orCrash value : Act σ (Stop ε) α).Ends s post fail ↔
      match value with
      | some a => post a s
      | none => fail .crashed s := by
  cases value <;> rfl

/-! ### What actions go along -/

/-- **The action goes along a relation**: wherever it starts and however it ends, the state that it
leaves is related to the one that it started from. -/
def GoesAlong (act : Act σ ε α) (R : σ → σ → Prop) : Prop :=
  ∀ s, R s (runOn act s).2

/-- A relation along which steps are put together. -/
structure Chains (R : σ → σ → Prop) : Prop where
  refl (s : σ) : R s s
  trans {s t u : σ} : R s t → R t u → R s u

section

variable {ε : Type} {R : σ → σ → Prop} {S : τ → τ → Prop} {act : Act σ ε α} {next : α → Act σ ε β}

theorem GoesAlong.ends (h : act.GoesAlong R) (s : σ) :
    act.Ends s (fun _ t => R s t) fun _ t => R s t :=
  (ends_self act s).mono (fun _ _ hrun => by have hs := h s; rwa [hrun] at hs)
    fun _ _ hrun => by have hs := h s; rwa [hrun] at hs

/-- It is enough to follow the action from every state. -/
theorem goesAlong_of_ends (h : ∀ s, act.Ends s (fun _ t => R s t) fun _ t => R s t) :
    act.GoesAlong R :=
  fun s => (h s).state (P := fun t => R s t)

/-- An action on a part of the state goes along what is known of that part. -/
theorem goesAlong_within {get : τ → σ} {put : σ → τ → τ} {wrap : ε → δ} (h : act.GoesAlong R)
    (hput : ∀ s t, R (get t) s → S t (put s t)) : (act.within get put wrap).GoesAlong S :=
  fun t => hput _ _ (h (get t))

namespace Chains

theorem pure (h : Chains R) (a : α) : (pure a : Act σ ε α).GoesAlong R :=
  h.refl

theorem throw (h : Chains R) (cause : ε) : (throw cause : Act σ ε α).GoesAlong R :=
  h.refl

/-- One action after another goes along if both of them do. -/
theorem bind (h : Chains R) (hact : act.GoesAlong R) (hnext : ∀ a, (next a).GoesAlong R) :
    (act >>= next).GoesAlong R := by
  intro s
  have hs := hact s
  rw [runOn_bind]
  rcases hrun : runOn act s with ⟨cause | a, t⟩
  · rwa [hrun] at hs
  · rw [hrun] at hs
    exact h.trans hs (hnext a t)

theorem when (h : Chains R) {p : Prop} [Decidable p] {first : Act σ ε PUnit}
    {next : PUnit → Act σ ε β} (hfirst : first.GoesAlong R) (hnext : (next ⟨⟩).GoesAlong R) :
    (if p then first >>= next else next ⟨⟩).GoesAlong R := by
  split
  · exact h.bind hfirst fun _ => hnext
  · exact hnext

/-- What handles a failure starts where the action stops. -/
theorem tryCatch (h : Chains R) {handle : ε → Act σ ε α} (hact : act.GoesAlong R)
    (hhandle : ∀ cause, (handle cause).GoesAlong R) :
    (tryCatch act handle : Act σ ε α).GoesAlong R := by
  intro s
  have hs := hact s
  rw [runOn_tryCatch]
  rcases hrun : runOn act s with ⟨cause | a, t⟩
  · rw [hrun] at hs
    exact h.trans hs (hhandle cause t)
  · rwa [hrun] at hs

/-- What chains for a part of the state chains for the whole. -/
theorem on (h : Chains R) (part : τ → σ) : Chains fun s t => R (part s) (part t) :=
  ⟨fun s => h.refl (part s), fun hs ht => h.trans hs ht⟩

end Chains

theorem goesAlong_ite {p : Prop} [Decidable p] {other : Act σ ε α} (h : act.GoesAlong R)
    (h' : other.GoesAlong R) : (if p then act else other).GoesAlong R := by
  split
  · exact h
  · exact h'

theorem Chains.failed (h : Chains R) (cause : ε) :
    (Act.fail cause : Act σ (Stop ε) α).GoesAlong R :=
  h.refl

theorem Chains.crashed (h : Chains R) : (crash : Act σ (Stop ε) α).GoesAlong R :=
  h.refl

theorem Chains.orCrash (h : Chains R) (value : Option α) :
    (orCrash value : Act σ (Stop ε) α).GoesAlong R := by
  cases value <;> exact h.refl

end

/-! ### What actions leave alone -/

/-- **The action leaves a part of the state alone**, wherever it starts and however it ends. -/
def Leaves {ρ : Type} (act : Act σ ε α) (part : σ → ρ) : Prop :=
  ∀ s, part (runOn act s).2 = part s

/-- Being the same in a part chains. -/
theorem chains_part {ρ : Type} (part : σ → ρ) : Chains fun s t => part t = part s :=
  ⟨fun _ => rfl, fun h h' => h'.trans h⟩

section

variable {ρ π : Type} {ε : Type} {part : σ → ρ} {act : Act σ ε α} {next : α → Act σ ε β}

theorem Leaves.goesAlong (h : act.Leaves part) : act.GoesAlong fun s t => part t = part s :=
  h

theorem Leaves.ends (h : act.Leaves part) (s : σ) :
    act.Ends s (fun _ t => part t = part s) fun _ t => part t = part s :=
  h.goesAlong.ends s

/-- It is enough to follow the action from every state. -/
theorem leaves_of_ends
    (h : ∀ s, act.Ends s (fun _ t => part t = part s) fun _ t => part t = part s) :
    act.Leaves part :=
  goesAlong_of_ends h

@[simp] theorem leaves_pure (a : α) : (pure a : Act σ ε α).Leaves part :=
  fun _ => rfl

@[simp] theorem leaves_throw (cause : ε) : (throw cause : Act σ ε α).Leaves part :=
  fun _ => rfl

@[simp] theorem leaves_get : (get : Act σ ε σ).Leaves part :=
  fun _ => rfl

theorem leaves_modify {f : σ → σ} (h : ∀ s, part (f s) = part s) :
    (modify f : Act σ ε PUnit).Leaves part :=
  h

@[simp] theorem leaves_ofExcept {wrap : δ → ε} {result : Except δ α} :
    (ofExcept wrap result : Act σ ε α).Leaves part :=
  fun _ => rfl

/-- One action after another leaves alone what both of them do. -/
theorem leaves_bind (h : act.Leaves part) (h' : ∀ a, (next a).Leaves part) :
    (act >>= next).Leaves part :=
  (chains_part part).bind h h'

theorem leaves_ite {p : Prop} [Decidable p] {other : Act σ ε α} (h : act.Leaves part)
    (h' : other.Leaves part) : (if p then act else other).Leaves part :=
  goesAlong_ite h.goesAlong h'.goesAlong

theorem leaves_when {p : Prop} [Decidable p] {first : Act σ ε PUnit} {next : PUnit → Act σ ε β}
    (h : first.Leaves part) (h' : (next ⟨⟩).Leaves part) :
    (if p then first >>= next else next ⟨⟩).Leaves part :=
  (chains_part part).when h h'

/-- An action on a part of the state leaves alone what does not depend on what it changes. -/
theorem leaves_within {get : τ → σ} {put : σ → τ → τ} {wrap : ε → δ} {whole : τ → π}
    (h : act.Leaves part) (hput : ∀ s t, part s = part (get t) → whole (put s t) = whole t) :
    (act.within get put wrap).Leaves whole :=
  goesAlong_within (S := fun t u => whole u = whole t) h.goesAlong fun s t hs => hput s t hs

end

section

variable {ρ : Type} {part : σ → ρ}

@[simp] theorem leaves_fail (cause : ε) : (Act.fail cause : Act σ (Stop ε) α).Leaves part :=
  fun _ => rfl

@[simp] theorem leaves_crash : (crash : Act σ (Stop ε) α).Leaves part :=
  fun _ => rfl

@[simp] theorem leaves_orCrash (value : Option α) :
    (orCrash value : Act σ (Stop ε) α).Leaves part := by
  cases value <;> exact fun _ => rfl

end

/-! ### Two runs side by side -/

/-- **Two runs go alike**: they answer the same, or they stop for the same cause; and the states
that they leave are related. -/
def Alike (R : σ → σ → Prop) (act : Act σ ε α) (s : σ) (act' : Act σ ε α) (t : σ) : Prop :=
  (runOn act s).1 = (runOn act' t).1 ∧ R (runOn act s).2 (runOn act' t).2

/-- **The action cannot tell related states apart.** -/
def Respects (act : Act σ ε α) (R : σ → σ → Prop) : Prop :=
  ∀ s t, R s t → Alike R act s act t

section

variable {ε : Type} {R : σ → σ → Prop} {S : τ → τ → Prop} {act act' : Act σ ε α}
  {next next' : α → Act σ ε β} {s t : σ}

/-- The two runs, with the one result that they have. -/
theorem Alike.runs (h : Alike R act s act' t) :
    ∃ result s' t', runOn act s = (result, s') ∧ runOn act' t = (result, t') ∧ R s' t' :=
  ⟨(runOn act s).1, (runOn act s).2, (runOn act' t).2, rfl, Prod.ext h.1.symm rfl, h.2⟩

/-- What is known of the second run is known of the first one. -/
theorem Alike.ends {post : α → σ → Prop} {fail : ε → σ → Prop} (h : Alike R act s act' t)
    (h' : act'.Ends t post fail) :
    act.Ends s (fun a s' => ∃ t', R s' t' ∧ post a t')
      fun cause s' => ∃ t', R s' t' ∧ fail cause t' := by
  obtain ⟨cause | a, s', t', hrun, hrun', hstate⟩ := h.runs
  · exact (ends_of_error hrun).mpr ⟨t', hstate, h'.of_error hrun'⟩
  · exact (ends_of_ok hrun).mpr ⟨t', hstate, h'.of_ok hrun'⟩

theorem respects_pure (a : α) : (pure a : Act σ ε α).Respects R :=
  fun _ _ h => ⟨rfl, h⟩

theorem respects_throw (cause : ε) : (throw cause : Act σ ε α).Respects R :=
  fun _ _ h => ⟨rfl, h⟩

theorem respects_modify {f : σ → σ} (h : ∀ s t, R s t → R (f s) (f t)) :
    (modify f : Act σ ε PUnit).Respects R :=
  fun s t hr => ⟨rfl, h s t hr⟩

/-- One action after another: the second ones start where the first ones answer. -/
theorem alike_bind (h : Alike R act s act' t)
    (h' : ∀ a s' t', R s' t' → Alike R (next a) s' (next' a) t') :
    Alike R (act >>= next) s (act' >>= next') t := by
  obtain ⟨cause | a, s', t', hrun, hrun', hstate⟩ := h.runs
  all_goals rw [Alike, runOn_bind, runOn_bind, hrun, hrun']
  · exact ⟨rfl, hstate⟩
  · exact h' a s' t' hstate

/-- One run begins with an action that the other one does not have. -/
theorem alike_bind_left {γ : Type} {first : Act σ ε γ} {rest : γ → Act σ ε α}
    {post : γ → σ → Prop} (h : first.Ends s post fun _ _ => False)
    (h' : ∀ a s', post a s' → Alike R (rest a) s' act' t) :
    Alike R (first >>= rest) s act' t := by
  obtain ⟨a, s', hrun, hpost⟩ := h.exists_ok
  rw [Alike, runOn_bind, hrun]
  exact h' a s' hpost

theorem alike_bind_right {γ : Type} {first : Act σ ε γ} {rest : γ → Act σ ε α}
    {post : γ → σ → Prop} (h : first.Ends t post fun _ _ => False)
    (h' : ∀ a t', post a t' → Alike R act s (rest a) t') :
    Alike R act s (first >>= rest) t := by
  obtain ⟨a, t', hrun, hpost⟩ := h.exists_ok
  rw [Alike, runOn_bind, hrun]
  exact h' a t' hpost

theorem respects_bind (h : act.Respects R) (h' : ∀ a, (next a).Respects R) :
    (act >>= next).Respects R :=
  fun s t hr => alike_bind (h s t hr) fun a => h' a

/-- What goes on with the state has to be compared for the two states. -/
theorem alike_get {next next' : σ → Act σ ε α} (h : Alike R (next s) s (next' t) t) :
    Alike R (get >>= next) s (get >>= next') t :=
  h

theorem respects_get {next : σ → Act σ ε α}
    (h : ∀ s t, R s t → Alike R (next s) s (next t) t) : (get >>= next).Respects R :=
  fun s t hr => alike_get (h s t hr)

theorem respects_ite {p : Prop} [Decidable p] (h : act.Respects R) (h' : act'.Respects R) :
    (if p then act else act').Respects R := by
  split
  · exact h
  · exact h'

theorem respects_when {p : Prop} [Decidable p] {first : Act σ ε PUnit}
    {next : PUnit → Act σ ε β} (h : first.Respects R) (h' : ∀ a, (next a).Respects R) :
    (if p then first >>= next else next ⟨⟩).Respects R :=
  respects_ite (respects_bind h h') (h' _)

theorem respects_tryCatch {handle : ε → Act σ ε α} (h : act.Respects R)
    (h' : ∀ cause, (handle cause).Respects R) :
    (tryCatch act handle : Act σ ε α).Respects R := by
  intro s t hr
  obtain ⟨cause | a, s', t', hrun, hrun', hstate⟩ := (h s t hr).runs
  all_goals rw [Alike, runOn_tryCatch, runOn_tryCatch, hrun, hrun']
  · exact h' cause s' t' hstate
  · exact ⟨rfl, hstate⟩

/-- Runs on a part of the state go alike on the whole. -/
theorem alike_within {get : τ → σ} {put : σ → τ → τ} {wrap : ε → δ} {u v : τ}
    (h : Alike R act (get u) act' (get v)) (hput : ∀ s t, R s t → S (put s u) (put t v)) :
    Alike S (act.within get put wrap) u (act'.within get put wrap) v := by
  rw [Alike, runOn_within, runOn_within, h.1]
  exact ⟨rfl, hput _ _ h.2⟩

end

end RangeSync.Act
