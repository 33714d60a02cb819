import IterationEngine.Proofs.Lifecycle
import IterationEngine.Proofs.Operations
import IterationEngine.Proofs.Changes.Actions

/-!
# Runs as elementary changes

A run changes the realm by elementary changes and in no other way.

The parts of which operations are made are sequences of such changes, and so are the operations
(`Guest.Stepwise.composable`); then programs are, by induction on the tree of their commands (`Guest.Stepwise.program`),
and calls, by induction on how deeply they may be nested (`Program.stepwise_guest`). So a fact that each elementary
change keeps is kept by every run (`Program.changes_of_runWithin`), and a fact that also holds before anything is
installed is a fact about every engine (`Engine.Reachable.realm_induction`): nothing but the list has to be looked at to
prove it.
-/

namespace IterationEngine

variable {H α β : Type}

/-! ## Runs -/

/-- A run that is a sequence of elementary changes, from every machine on which it answers. -/
def Run.Stepwise (x : Run H α) : Prop := ∀ ⦃m a m'⦄, x m = some (a, m') → m.realm.Changes m'.realm

namespace Run.Stepwise

theorem pure (a : α) : Stepwise (Pure.pure a : Run H α) := by
  intro m b m' h
  obtain ⟨-, rfl⟩ := pure_eq_some h
  rfl

theorem diverge : Stepwise (Run.diverge : Run H α) := by
  intro m a m' h
  rw [Run.diverge_apply] at h
  cases h

theorem bind {x : Run H α} {f : α → Run H β} (hx : Stepwise x) (hf : ∀ a, Stepwise (f a)) : Stepwise (x >>= f) := by
  intro m b m'' h
  obtain ⟨a, m', hxa, hfa⟩ := bind_eq_some.mp h
  exact (hx hxa).trans (hf a hfa)

theorem lift {x : Action α} (hx : Realm.Stepwise x) : Stepwise (liftM x : Run H α) := by
  intro m a m' h
  obtain ⟨-, rfl⟩ := lift_eq_some h
  exact hx m.realm

theorem requireLive (vs : List Value) : Stepwise (Run.requireLive vs : Run H Unit) := by
  intro m a m' h
  unfold Run.requireLive at h
  split at h
  · obtain ⟨-, rfl⟩ := Prod.mk.inj (Option.some.inj h)
    rfl
  · cases h

end Run.Stepwise

/-- Calls of guest code are sequences of elementary changes. -/
def Guest.Stepwise (g : Guest H) : Prop := ∀ f v args, Run.Stepwise (g.call f v args)

namespace Guest.Stepwise

open Run.Stepwise

variable {g : Guest H}

/-- Elementary changes are all that operations are made of. -/
theorem composable (hg : g.Stepwise) : Run.Composable g fun _ _ x => Run.Stepwise x where
  pure := pure
  diverge := @fun _ _ => diverge
  bind := bind
  call := hg
  ask hx := lift (.ask hx)
  raise v := lift (.raise v)
  takePending := @fun _ => lift .takePending
  alloc ho hf := (lift (.alloc ho)).bind hf
  insertEntry key v _ := lift (.insertEntry _ key v)
  insertValue v _ := lift (.insertValue _ v)

theorem perform (hg : g.Stepwise) (c : Command) : Run.Stepwise (c.perform g) :=
  hg.composable.perform [] c fun _ hx => lift (.ofCommand hx)

end Guest.Stepwise

/-! ## Programs -/

/-- Every piece of guest code is a sequence of elementary changes. -/
def GuestCode.Stepwise (guest : GuestCode H) : Prop := ∀ code args, Run.Stepwise (guest code args)

namespace GuestCode.Stepwise

open Run.Stepwise

variable {guest : GuestCode H}

theorem callFunction {g : Guest H} (hg : g.Stepwise) (hguest : guest.Stepwise) (f : ObjectId) (v : Value)
    (args : List Value) : Run.Stepwise (IterationEngine.callFunction guest f v args) :=
  hg.composable.callFunction [] (fun frame => ⟨lift (.enterFrame frame), lift (.leaveFrame frame)⟩)
    (fun iterator => lift (.advance iterator)) hguest f v args

end GuestCode.Stepwise

namespace Guest.Stepwise

open Program Run.Stepwise

variable {S : Type} {g : Guest (Embedder S)}

theorem define (name : String) (arity : UInt32) (body : List Value → Program S) :
    Run.Stepwise (defineFunction name arity body) := by
  intro m f m' h
  obtain ⟨-, rfl⟩ := Prod.mk.inj (Option.some.inj h)
  exact .single (.alloc (.ofCode _ _ _))

theorem update (change : S → S) : Run.Stepwise (updateState change) := by
  intro m state m' h
  obtain ⟨-, rfl⟩ := Prod.mk.inj (Option.some.inj h)
  rfl

/-- A program, by induction on the tree of its commands. -/
theorem program (hg : g.Stepwise) (p : Program S) : Run.Stepwise (p.run g) := by
  induction p with
  | finish c => exact (requireLive _).bind fun _ => pure c
  | perform command next ih => exact ((requireLive _).bind fun _ => hg.perform command).bind ih
  | define name arity body next _ ih => exact (define name arity body).bind ih
  | forOf iterable body next ihBody ih =>
    exact (requireLive _).bind fun _ => (hg.composable.forOf [] ihBody iterable).bind ih
  | update change next ih => exact (update change).bind ih

theorem code (hg : g.Stepwise) : (Program.runGuest g).Stepwise := by
  intro code args m v m' h
  unfold Program.runGuest at h
  split at h
  · next body _ => exact ((hg.program (body args)).bind fun c => pure c.value) h
  · cases h

end Guest.Stepwise

/-- Calls at every depth, by induction on how deeply they may be nested. -/
theorem Program.stepwise_guest {S : Type} (rounds nesting : Nat) : (guest (S := S) rounds nesting).Stepwise := by
  induction nesting with
  | zero => exact fun _ _ _ => .diverge
  | succ nesting ih => exact ih.code.callFunction ih

/-- A program that answers has made elementary changes to the realm and no others. -/
theorem Program.changes_of_runWithin {S : Type} {p : Program S} {bounds : Bounds} {m m' : Machine (Embedder S)}
    {c : Completion} (h : p.runWithin bounds m = some (c, m')) : m.realm.Changes m'.realm :=
  (stepwise_guest bounds.rounds bounds.nesting).program p h

/-! ## Engines -/

namespace Engine

variable {S : Type} {e : Engine S} {context : Context}

theorem changes_installed (e : Engine S) : e.freshRealm.Changes (Intrinsics.install e.freshRealm).2 :=
  Realm.Stepwise.install e.freshRealm

/-- Running a program leaves a live engine live, with elementary changes of its realm. -/
theorem changes_run (hget : e.getContext = .ok context) (bounds : Program.Bounds) (p : Program S) :
    ∃ context', (e.run bounds p).2.getContext = .ok context' ∧
      (e.machine context).realm.Changes ((e.run bounds p).2.machine context').realm := by
  rw [run_eq hget]
  split
  · next c m hrun =>
    have hlive := (getContext_eq_ok_iff.mp hget).1
    exact ⟨m.realm.context, getContext_eq_ok_iff.mpr ⟨hlive, rfl⟩, Program.changes_of_runWithin hrun⟩
  · exact ⟨context, hget, .refl⟩

/-- What holds of realms without objects before anything is installed, and is kept by elementary changes, holds of the
realm of every live engine. -/
theorem Reachable.realm_induction {P : Realm → Prop}
    (hempty : ∀ e : Engine S, e.heap.objects = #[] → P e.freshRealm)
    (hchange : ∀ r r', P r → r.Change r' → P r') (h : e.Reachable) (hcontext : e.context = some context) :
    P (e.machine context).realm := by
  have hchanges : ∀ r r', P r → r.Changes r' → P r' := by
    intro r r' hr hrr'
    induction hrr' with
    | refl => exact hr
    | tail _ hstep ih => exact hchange _ _ ih hstep
  induction h generalizing context with
  | fresh => cases hcontext
  | @updateConfig e e' config _ hconfig ih =>
    cases hlive : e.isInitialized with
    | true =>
      rw [updateConfig_of_live hlive] at hconfig
      cases hconfig
    | false =>
      rw [updateConfig_of_idle hlive] at hconfig
      obtain rfl := Except.ok.inj hconfig
      exact ih hcontext
  | @start e hreachable ih =>
    obtain ⟨-, hstart⟩ | ⟨-, -, -, hstart⟩ | ⟨hidle, -, -, hstart⟩ := e.start_cases
    · rw [hstart] at hcontext ⊢
      exact ih hcontext
    · rw [hstart] at hcontext
      cases hcontext
    · have hobjects := hreachable.inStep.empty hidle
      have hrealm := hchanges _ _ (hempty e hobjects) e.changes_installed
      rw [hstart, installed] at hcontext ⊢
      -- from here on it does not matter what has been installed
      generalize (Intrinsics.install e.freshRealm).2 = realm at hcontext hrealm ⊢
      obtain rfl := Option.some.inj hcontext
      exact hrealm
  | @shutdown e _ ih =>
    cases hlive : e.isInitialized with
    | true =>
      rw [shutdown_of_live hlive] at hcontext
      cases hcontext
    | false =>
      rw [shutdown_of_idle hlive] at hcontext ⊢
      exact ih hcontext
  | @run e bounds p hreachable ih =>
    cases hget : e.getContext with
    | error =>
      obtain ⟨registry, state, hrun⟩ := exists_run_of_refused hget bounds p
      rw [hrun] at hcontext
      cases hget.symm.trans (hreachable.inStep.getContext_eq hcontext)
    | ok before =>
      obtain ⟨after, hafter, hrun⟩ := changes_run hget bounds p
      obtain rfl := Option.some.inj ((getContext_eq_ok_iff.mp hafter).2.symm.trans hcontext)
      exact hchanges _ _ (ih (getContext_eq_ok_iff.mp hget).2) hrun

end Engine

end IterationEngine
