import RangeSync.Environment.Guard
import RangeSync.Proofs.Utf8

/-!
# What guards put back

A guard remembers text, while a variable holds bytes. So dropping a guard does not simply bring the
old environment back, and neither does dropping many of them. What does come back can be said in
one relation (`RangeSync.Environment.LeavesText`): the environment is the old one again, except
that of some variables, which are named, only the text is left.

The point is that this relation forgets what happened in between. A guard that is dropped leaves
only the text of its own variable, whatever other guards made of it in the meantime
(`RangeSync.Guard.leavesText_drop`). A guard that is still waiting does not mind what is lost before
it is dropped (`RangeSync.Guard.leavesText_drop_drop`). Hence one step of a session, and by
induction a session of any length, loses nothing but bytes of the variables that it touched.

Guards that are dropped newest first are nested, so each drop closes a session that ran inside of
it: `RangeSync.Guarded.Nested` describes such sessions, and `RangeSync.Guarded.exists_opening`
finds, for every drop, the action that created the guard. The main result,
`RangeSync.Guarded.guards_leave_text`, is about every drop of a session and about dropping all
guards at its end. In both cases the environment is the one from before exactly if every variable
that was touched was missing or held text.
-/

namespace RangeSync

open Text

variable {env env' env₁ env₂ : Environment} {name other : String} {value : List UInt8}
  {names names' : List String}

/-! ### Variables -/

namespace Environment

/-- The environments have the same variables. -/
def Same (env env' : Environment) : Prop :=
  ∀ name, env.get? name = env'.get? name

/-- The variable is missing, or it holds text. -/
def HoldsText (env : Environment) (name : String) : Prop :=
  ∀ value, env.get? name = some value → ∃ text, encode text = value

/-- What is left of a variable if only text is kept. -/
def left? (env : Environment) (name : String) : Option (List UInt8) :=
  (env.text? name).map encode

theorem get?_unset (env : Environment) (name other : String) :
    (env.unset name).get? other = if other = name then none else env.get? other := by
  unfold unset get?
  induction env.bindings with
  | nil => exact (ite_self _).symm
  | cons binding rest ih =>
    obtain ⟨key, held⟩ := binding
    by_cases hkey : key = name
    · subst hkey
      rw [List.filter_cons_of_neg (by simp), ih, List.lookup_cons]
      by_cases hother : other = key
      · rw [if_pos hother, if_pos hother]
      · rw [if_neg hother, if_neg hother, beq_false_of_ne hother]
    · rw [List.filter_cons_of_pos (by simpa using hkey), List.lookup_cons, List.lookup_cons, ih]
      by_cases hother : other = key
      · simp only [beq_iff_eq.mpr hother, if_neg (hother ▸ hkey)]
      · rw [beq_false_of_ne hother]

theorem get?_set (env : Environment) (name other : String) (value : List UInt8) :
    (env.set name value).get? other = if other = name then some value else env.get? other := by
  have hcons : (env.set name value).get? other =
      if other = name then some value else (env.unset name).get? other := by
    unfold set get?
    rw [List.lookup_cons]
    by_cases hother : other = name
    · rw [if_pos hother, beq_iff_eq.mpr hother]
    · rw [if_neg hother, beq_false_of_ne hother]
  rw [hcons, get?_unset]
  by_cases hother : other = name
  · rw [if_pos hother, if_pos hother]
  · rw [if_neg hother, if_neg hother, if_neg hother]

/-- Text is kept, and nothing else is. -/
theorem left?_eq_get?_iff : env.left? name = env.get? name ↔ env.HoldsText name := by
  unfold left? text? HoldsText
  cases hheld : env.get? name with
  | none => exact iff_of_true rfl (fun value h => nomatch h)
  | some bytes =>
    simp only [Option.bind_some, Option.map_eq_some_iff, decode?_eq_some_iff, and_self,
      Option.some.injEq, forall_eq']

/-- What depends on the bytes of a variable alone. -/
theorem left?_congr (h : env'.get? name = env.get? name) : env'.left? name = env.left? name := by
  unfold left? text?
  rw [h]

/-- What is left once is left for good. -/
theorem left?_of_get? (h : env'.get? name = env.left? name) : env'.left? name = env.left? name := by
  rw [← h, left?_eq_get?_iff]
  intro value hvalue
  rw [h] at hvalue
  obtain ⟨text, -, htext⟩ := Option.map_eq_some_iff.mp hvalue
  exact ⟨text, htext⟩

/-! ### What is left of an environment -/

/-- **What is left of an environment**: the second environment is the first one again, except that
of the named variables only text is left. -/
def LeavesText (names : List String) (env env' : Environment) : Prop :=
  ∀ name, env'.get? name = if name ∈ names then env.left? name else env.get? name

theorem LeavesText.refl (env : Environment) : LeavesText [] env env :=
  fun _ => (if_neg List.not_mem_nil).symm

/-- What is left is kept from then on. -/
theorem LeavesText.left? (h : LeavesText names env env') (name : String) :
    env'.left? name = env.left? name := by
  by_cases hname : name ∈ names
  · exact left?_of_get? ((h name).trans (if_pos hname))
  · exact left?_congr ((h name).trans (if_neg hname))

theorem LeavesText.trans (h : LeavesText names env env₁) (h' : LeavesText names' env₁ env₂) :
    LeavesText (names ++ names') env env₂ := by
  intro name
  rw [h' name, h.left?, h name]
  by_cases hname : name ∈ names
  · rw [if_pos hname, if_pos (List.mem_append_left _ hname), ite_self]
  · simp only [List.mem_append, hname, false_or, if_false]

/-- **Nothing is lost exactly if the named variables hold text.** -/
theorem LeavesText.same_iff (h : LeavesText names env env') :
    env'.Same env ↔ ∀ name ∈ names, env.HoldsText name := by
  simp only [← left?_eq_get?_iff]
  constructor
  · intro hsame name hname
    rw [← hsame name, h name, if_pos hname]
  · intro htext name
    rw [h name]
    by_cases hname : name ∈ names
    · rw [if_pos hname, htext name hname]
    · rw [if_neg hname]

end Environment

open Environment

/-! ### Dropping one guard -/

namespace Guard

theorem get?_drop (guard : Guard) (env : Environment) (name : String) :
    (guard.drop env).get? name =
      if name = guard.name then guard.previous.map encode else env.get? name := by
  unfold drop
  cases guard.previous with
  | none => exact get?_unset env guard.name name
  | some text => exact get?_set env guard.name name (encode text)

/-- **A guard leaves its own name behind**: whatever was done to the variables since, dropping it
restores the variable that it guards as far as it was text. -/
theorem leavesText_drop (h : ∀ other, other ≠ name → env₁.get? other = env.get? other)
    (hnames : LeavesText names env₁ env₂) :
    LeavesText (name :: names) env ((⟨name, env.text? name⟩ : Guard).drop env₂) := by
  intro other
  rw [get?_drop]
  by_cases hother : other = name
  · subst hother
    rw [if_pos rfl, if_pos List.mem_cons_self]
    rfl
  · rw [hnames other, left?_congr (h other hother), h other hother]
    simp only [List.mem_cons, hother, false_or, if_false]

/-- A guard that is dropped later does not mind what is lost before. -/
theorem leavesText_drop_drop (guard : Guard) (h : LeavesText names env env') :
    LeavesText names (guard.drop env) (guard.drop env') := by
  have hleft : ∀ name, name ≠ guard.name → (guard.drop env).left? name = env.left? name :=
    fun name hname => left?_congr ((get?_drop guard env name).trans (if_neg hname))
  intro name
  by_cases hname : name = guard.name
  · have hheld : ∀ env : Environment, (guard.drop env).get? name = guard.previous.map encode :=
      fun env => (get?_drop guard env name).trans (if_pos hname)
    have htext : (guard.drop env).HoldsText name := by
      intro value hvalue
      obtain ⟨text, -, htext⟩ := Option.map_eq_some_iff.mp ((hheld env).symm.trans hvalue)
      exact ⟨text, htext⟩
    rw [left?_eq_get?_iff.mpr htext, ite_self, hheld, hheld]
  · rw [hleft name hname, get?_drop, get?_drop, if_neg hname, if_neg hname, h name]

/-- The same for many guards. -/
theorem leavesText_foldl_drop (guards : List Guard) (h : LeavesText names env env') :
    LeavesText names (guards.foldl (fun env guard => guard.drop env) env)
      (guards.foldl (fun env guard => guard.drop env) env') := by
  induction guards generalizing env env' with
  | nil => exact h
  | cons guard rest ih => exact ih (leavesText_drop_drop guard h)

end Guard

/-! ### Sessions -/

namespace Guarded

namespace Action

/-- The variable that an action puts under a guard. -/
def guarded? : Action → Option String
  | set name _ => some name
  | remove name => some name
  | dropNewest => none
  | dropOldest => none

/-- The action creates a guard. -/
def Opens (a : Action) : Prop :=
  a.guarded?.isSome

/-- The value that the action sets can be the value of a variable. -/
def IsSettable : Action → Prop
  | set _ value => 0 ∉ value
  | _ => True

end Action

/-- The variables that are put under guards. -/
def touched (actions : List Action) : List String :=
  actions.filterMap Action.guarded?

/-- One action after the other. -/
def run? (g : Guarded) (actions : List Action) : Option Guarded :=
  actions.foldlM act? g

/-- **Sessions that drop the guards they create**, each after the sessions inside of it. -/
inductive Nested : List Action → Prop
  | nil : Nested []
  | guarded {opening : Action} {inner rest : List Action} (hopens : opening.Opens)
      (hinner : Nested inner) (hrest : Nested rest) :
      Nested (opening :: (inner ++ .dropNewest :: rest))

variable {a opening : Action} {actions inner before : List Action} {g g' : Guarded}
  {guards : List Guard} {top : Guard}

theorem run?_append (g : Guarded) (before actions : List Action) :
    g.run? (before ++ actions) = (g.run? before).bind (·.run? actions) :=
  List.foldlM_append

theorem run?_cons (g : Guarded) (a : Action) (actions : List Action) :
    g.run? (a :: actions) = (g.act? a).bind (·.run? actions) :=
  List.foldlM_cons

theorem touched_append (before actions : List Action) :
    touched (before ++ actions) = touched before ++ touched actions :=
  List.filterMap_append

/-- **An action that creates a guard** pushes it, with the text of the variable, and changes no
other variable. -/
theorem act?_of_opens (hopens : a.Opens) (hsettable : a.IsSettable) (g : Guarded) :
    ∃ name env', a.guarded? = some name ∧
      g.act? a = some ⟨env', ⟨name, g.env.text? name⟩ :: g.guards⟩ ∧
      ∀ other, other ≠ name → env'.get? other = g.env.get? other := by
  cases a with
  | set name value =>
    have hzero : value.contains 0 = false := by simpa using (show 0 ∉ value from hsettable)
    refine ⟨name, g.env.set name value, rfl, ?_, fun other hother => ?_⟩
    · simp only [act?, Guard.set?, hzero, Bool.false_eq_true, if_false, Option.map_some]
    · rw [get?_set, if_neg hother]
  | remove name =>
    refine ⟨name, g.env.unset name, rfl, rfl, fun other hother => ?_⟩
    rw [get?_unset, if_neg hother]
  | dropNewest => cases hopens
  | dropOldest => cases hopens

/-! ### Nested sessions -/

/-- Nested sessions one behind the other. -/
theorem Nested.append (h : Nested before) (h' : Nested actions) : Nested (before ++ actions) := by
  induction h with
  | nil => exact h'
  | @guarded _ _ _ hopens hinner _ _ ih =>
    rw [List.cons_append, List.append_assoc, List.cons_append]
    exact Nested.guarded hopens hinner ih

/-- **A nested session** leaves the guards alone that it found, and it leaves the text of the
variables that it touched. -/
theorem Nested.run? (h : Nested actions) (hsettable : ∀ a ∈ actions, a.IsSettable)
    (env : Environment) (guards : List Guard) :
    ∃ env', (⟨env, guards⟩ : Guarded).run? actions = some ⟨env', guards⟩ ∧
      LeavesText (touched actions) env env' := by
  induction h generalizing env guards with
  | nil => exact ⟨env, rfl, LeavesText.refl env⟩
  | @guarded opening inner rest hopens _ _ ihinner ihrest =>
    obtain ⟨hopening, hsettable⟩ := List.forall_mem_cons.mp hsettable
    obtain ⟨hinner, hsettable⟩ := List.forall_mem_append.mp hsettable
    obtain ⟨-, hrest⟩ := List.forall_mem_cons.mp hsettable
    obtain ⟨name, env₁, hname, hact, hsame⟩ := act?_of_opens hopens hopening ⟨env, guards⟩
    obtain ⟨env₂, hrun, hleaves⟩ := ihinner hinner env₁ (⟨name, env.text? name⟩ :: guards)
    obtain ⟨env', hrun', hleaves'⟩ :=
      ihrest hrest ((⟨name, env.text? name⟩ : Guard).drop env₂) guards
    -- the guard is on top again when the inner session is over, so it is the one that is dropped
    refine ⟨env', ?_, ?_⟩
    · rw [run?_cons, hact, Option.bind_some, run?_append, hrun, Option.bind_some, run?_cons]
      exact hrun'
    · have htouched : touched (opening :: (inner ++ .dropNewest :: rest)) =
          (name :: touched inner) ++ touched rest := by
        rw [touched, List.filterMap_cons_some hname, List.filterMap_append]
        rfl
      rw [htouched]
      exact (Guard.leavesText_drop hsame hleaves).trans hleaves'

/-- One guard, and a nested session in front of its drop. -/
theorem Nested.single (hopens : opening.Opens) (hinner : Nested inner) :
    Nested (opening :: (inner ++ [.dropNewest])) :=
  Nested.guarded hopens hinner Nested.nil

/-! ### Every drop has its guard -/

/-- What an action does to the guards, if it is not a drop of the oldest: it pushes one, or it pops
one, or there is none to drop. -/
theorem act?_guards (hact : g.act? a = some g') (holdest : a ≠ .dropOldest) :
    (a.Opens ∧ g'.guards.tail = g.guards) ∨
      (a = .dropNewest ∧ g'.guards = g.guards.tail) := by
  cases a with
  | set name value =>
    refine Or.inl ⟨rfl, ?_⟩
    obtain ⟨⟨guard, env⟩, hset, rfl⟩ := Option.map_eq_some_iff.mp hact
    rfl
  | remove name =>
    cases hact
    exact Or.inl ⟨rfl, rfl⟩
  | dropNewest =>
    refine Or.inr ⟨rfl, ?_⟩
    rw [act?] at hact
    split at hact
    next hnone =>
      cases hact
      rw [hnone, List.tail_nil]
    next guard rest hsome =>
      cases hact
      rw [hsome, List.tail_cons]
  | dropOldest => exact absurd rfl holdest

/-- **The opening of the newest guard**: if a session that drops guards newest first has a guard
left, then some action created the newest one, and after it came a nested session. -/
theorem exists_opening (hsettable : ∀ a ∈ actions, a.IsSettable)
    (hnewest : ∀ a ∈ actions, a ≠ .dropOldest)
    (hrun : (⟨env, []⟩ : Guarded).run? actions = some g) (hguards : g.guards = top :: guards) :
    ∃ before opening inner earlier, actions = before ++ opening :: inner ∧ opening.Opens ∧
      Nested inner ∧ (⟨env, []⟩ : Guarded).run? before = some earlier ∧
      earlier.guards = guards := by
  -- by induction on the length: behind a drop the guard below is sought, in front of the opening
  -- of the one that was dropped
  obtain ⟨length, hlength⟩ : ∃ length, actions.length = length := ⟨_, rfl⟩
  induction length using Nat.strongRecOn generalizing actions g top guards with
  | ind length ih =>
  rcases List.eq_nil_or_concat actions with rfl | ⟨front, a, rfl⟩
  · cases hrun
    cases hguards
  rw [List.concat_eq_append] at hsettable hnewest hrun hlength ⊢
  obtain ⟨hsetfront, -⟩ := List.forall_mem_append.mp hsettable
  obtain ⟨hnewfront, hlast⟩ := List.forall_mem_append.mp hnewest
  rw [run?_append] at hrun
  obtain ⟨g₁, hfront, hrun⟩ := Option.bind_eq_some_iff.mp hrun
  rw [run?_cons] at hrun
  obtain ⟨g₂, hact, hrun⟩ := Option.bind_eq_some_iff.mp hrun
  cases hrun
  rw [List.length_append, List.length_singleton] at hlength
  rcases act?_guards hact (hlast a List.mem_cons_self) with ⟨hopens, htail⟩ | ⟨rfl, htail⟩
  · refine ⟨front, a, [], g₁, rfl, hopens, Nested.nil, hfront, ?_⟩
    rw [← htail, hguards, List.tail_cons]
  · cases hbelow : g₁.guards with
    | nil =>
      rw [hbelow, hguards] at htail
      cases htail
    | cons dropped rest =>
      rw [hbelow, List.tail_cons, hguards] at htail
      subst htail
      obtain ⟨front', opening, inner, earlier, rfl, hopens, hinner, hfront', hearlier⟩ :=
        ih front.length (by omega) hsetfront hnewfront hfront hbelow rfl
      obtain ⟨hsetfront', -⟩ := List.forall_mem_append.mp hsetfront
      obtain ⟨hnewfront', -⟩ := List.forall_mem_append.mp hnewfront
      rw [List.length_append, List.length_cons] at hlength
      obtain ⟨before, opening', inner', earlier', rfl, hopens', hinner', hbefore, hearlier'⟩ :=
        ih front'.length (by omega) hsetfront' hnewfront' hfront' hearlier rfl
      refine ⟨before, opening', inner' ++ opening :: (inner ++ [.dropNewest]), earlier', ?_, hopens',
        hinner'.append (Nested.single hopens hinner), hbefore, hearlier'⟩
      simp only [List.append_assoc, List.cons_append]

/-! ### Dropping all guards -/

/-- **One step**: dropping all guards after an action gives what dropping them before it gives, with
only the text of the variable that it touches. -/
theorem leavesText_dropAll_act? (hsettable : a.IsSettable) (holdest : a ≠ .dropOldest) (g : Guarded) :
    ∃ g', g.act? a = some g' ∧ LeavesText a.guarded?.toList g.dropAll g'.dropAll := by
  by_cases hopens : a.Opens
  · obtain ⟨name, env', hname, hact, hsame⟩ := act?_of_opens hopens hsettable g
    rw [hname]
    exact ⟨_, hact,
      Guard.leavesText_foldl_drop g.guards (Guard.leavesText_drop hsame (LeavesText.refl env'))⟩
  · cases a with
    | set => exact absurd rfl hopens
    | remove => exact absurd rfl hopens
    | dropOldest => exact absurd rfl holdest
    | dropNewest =>
      -- dropping all guards begins with the newest one anyway
      obtain ⟨env, guards⟩ := g
      cases guards with
      | nil => exact ⟨_, rfl, LeavesText.refl env⟩
      | cons guard rest => exact ⟨_, rfl, LeavesText.refl _⟩

/-- **A session**: whatever it does, apart from dropping an older guard before a newer one, dropping
all guards at its end gives what dropping them at its beginning gives, with only the text of the
variables that it touched. -/
theorem leavesText_dropAll_run? (hsettable : ∀ a ∈ actions, a.IsSettable)
    (hnewest : ∀ a ∈ actions, a ≠ .dropOldest) (g : Guarded) :
    ∃ g', g.run? actions = some g' ∧ LeavesText (touched actions) g.dropAll g'.dropAll := by
  induction actions generalizing g with
  | nil => exact ⟨g, rfl, LeavesText.refl _⟩
  | cons a rest ih =>
    obtain ⟨hsettable, hrest⟩ := List.forall_mem_cons.mp hsettable
    obtain ⟨holdest, hnewest⟩ := List.forall_mem_cons.mp hnewest
    obtain ⟨g₁, hact, hleaves⟩ := leavesText_dropAll_act? hsettable holdest g
    obtain ⟨g', hrun, hleaves'⟩ := ih hrest hnewest g₁
    refine ⟨g', ?_, ?_⟩
    · rw [run?_cons, hact, Option.bind_some, hrun]
    · rw [← List.singleton_append, touched_append]
      refine LeavesText.trans ?_ hleaves'
      rw [touched, List.filterMap_cons]
      cases hname : a.guarded? <;> rw [hname] at hleaves <;> exact hleaves

/-! ### The main result -/

/-- **What guards put back.** In every environment a session sets and removes variables under
guards and drops guards newest first. It can always be carried through.

Every drop of a guard undoes an action of the session, behind which a nested session ran: the
guards are those from before that action, and the environment is the one from before it, except
that of the variables touched since then only text is left. It is the same environment exactly if
these variables were missing or held text.

Dropping all guards at the end puts back the first environment in the same sense. -/
theorem guards_leave_text (env : Environment) (actions : List Action)
    (hsettable : ∀ a ∈ actions, a.IsSettable) (hnewest : ∀ a ∈ actions, a ≠ .dropOldest) :
    (∀ sofar rest g, actions = sofar ++ .dropNewest :: rest →
      (⟨env, []⟩ : Guarded).run? sofar = some g → g.guards ≠ [] →
      ∃ before opening inner earlier dropped,
        sofar = before ++ opening :: inner ∧ opening.Opens ∧ Nested inner ∧
        (⟨env, []⟩ : Guarded).run? before = some earlier ∧
        g.act? .dropNewest = some ⟨dropped, earlier.guards⟩ ∧
        LeavesText (touched (opening :: inner)) earlier.env dropped ∧
        (dropped.Same earlier.env ↔
          ∀ name ∈ touched (opening :: inner), earlier.env.HoldsText name)) ∧
    ∃ g, (⟨env, []⟩ : Guarded).run? actions = some g ∧
      LeavesText (touched actions) env g.dropAll ∧
      (g.dropAll.Same env ↔ ∀ name ∈ touched actions, env.HoldsText name) := by
  constructor
  · rintro sofar rest g rfl hrun hguards
    obtain ⟨hsettable, -⟩ := List.forall_mem_append.mp hsettable
    obtain ⟨hnewest, -⟩ := List.forall_mem_append.mp hnewest
    obtain ⟨top, guards, htop⟩ := List.exists_cons_of_ne_nil hguards
    obtain ⟨before, opening, inner, earlier, rfl, hopens, hinner, hbefore, -⟩ :=
      exists_opening hsettable hnewest hrun htop
    obtain ⟨-, hsettable⟩ := List.forall_mem_append.mp hsettable
    have hsession : ∀ a ∈ opening :: (inner ++ [.dropNewest]), a.IsSettable := by
      rw [← List.cons_append]
      exact List.forall_mem_append.mpr ⟨hsettable, List.forall_mem_singleton.mpr trivial⟩
    obtain ⟨dropped, hdropped, hleaves⟩ :=
      (Nested.single hopens hinner).run? hsession earlier.env earlier.guards
    have htouched : touched (opening :: (inner ++ [.dropNewest])) = touched (opening :: inner) := by
      rw [← List.cons_append, touched_append]
      exact List.append_nil _
    rw [htouched] at hleaves
    -- the last action of that session is the drop, and the ones before it lead to `g`
    have hdrop : g.act? .dropNewest = some ⟨dropped, earlier.guards⟩ := by
      rw [← List.cons_append, run?_append] at hdropped
      rw [run?_append, hbefore, Option.bind_some] at hrun
      rw [show (⟨earlier.env, earlier.guards⟩ : Guarded) = earlier from rfl, hrun,
        Option.bind_some, run?_cons] at hdropped
      obtain ⟨g', hact, hnil⟩ := Option.bind_eq_some_iff.mp hdropped
      exact hact.trans hnil
    exact ⟨before, opening, inner, earlier, dropped, rfl, hopens, hinner, hbefore, hdrop, hleaves,
      hleaves.same_iff⟩
  · obtain ⟨g, hrun, hleaves⟩ := leavesText_dropAll_run? hsettable hnewest ⟨env, []⟩
    exact ⟨g, hrun, hleaves, hleaves.same_iff⟩

/-- Two guards for one variable, of which the inner one is dropped. -/
def twoGuards : List Action :=
  [.set "A" (encode "a"), .remove "A", .dropNewest]

/-- The guards of a missing variable put everything back. -/
theorem guards_leave_text_twoGuards :
    (∀ a ∈ twoGuards, a.IsSettable) ∧ (∀ a ∈ twoGuards, a ≠ .dropOldest) ∧
      ∃ g, (⟨.empty, []⟩ : Guarded).run? twoGuards = some g ∧ g.dropAll.Same .empty := by
  have hsettable : ∀ a ∈ twoGuards, a.IsSettable :=
    List.forall_mem_cons.mpr ⟨show 0 ∉ encode "a" by decide, by simp [Action.IsSettable]⟩
  have hnewest : ∀ a ∈ twoGuards, a ≠ .dropOldest := by decide
  obtain ⟨-, g, hrun, -, hsame⟩ := guards_leave_text .empty twoGuards hsettable hnewest
  exact ⟨hsettable, hnewest, g, hrun, hsame.mpr fun _ _ _ h => nomatch h⟩

/-- **Bytes that are no text are not put back**: a variable of the first environment holds a byte
that is not UTF-8, a guard replaces it and is dropped, and then the variable is missing. -/
theorem bytes_are_not_put_back :
    ∃ (env : Environment) (later : Guarded), env.get? "A" = some [0xFF] ∧
      (⟨env, []⟩ : Guarded).run? [.set "A" (encode "x"), .dropNewest] = some later ∧
      later.env.get? "A" = none ∧ ¬ later.env.Same env := by
  refine ⟨⟨[("A", [0xFF])]⟩, ⟨⟨[]⟩, []⟩, by rfl, by decide +kernel, by rfl, fun hsame => ?_⟩
  exact absurd (hsame "A") (by decide)

end Guarded
end RangeSync
