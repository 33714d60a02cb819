import IterationEngine.Proofs.Closed.Operations
import IterationEngine.Proofs.Engine

/-!
# Closed engines

Whatever guest code does, every object that is stored anywhere is on the heap.

1. `Guest.KeepsClosed.program`: a program keeps a machine sound, by induction on the tree of its commands.
2. `keepsClosed_guestNoted`: so do calls, by induction on how deeply they are nested.
3. `Engine.Life`: an engine that has been started and has run programs since; `Engine.closed_of_life`: the result.
-/

namespace IterationEngine

variable {H S : Type}

/-! ## Calls -/

/-- The guest code, given live arguments, answers a live value. -/
def GuestCode.KeepsClosed (guest : GuestCode (H × Journal)) : Prop :=
  ∀ h₀ code args, h₀.Holds args → Run.KeepsClosed h₀ (Heap.holding fun result => [result]) (guest code args)

theorem Context.liveIn_effectiveReceiver {h : Heap} {c : Context} {v : Value} (hc : h.Holds c.values)
    (hv : v.LiveIn h) : (c.effectiveReceiver v).LiveIn h := by
  unfold effectiveReceiver
  split
  · have hglobal := (holds_values.mp hc).2.2.1
    split
    · next hg =>
      rw [hg] at hglobal
      exact hglobal
    · exact hv
  · exact hv

namespace Realm.KeepsClosed

open Heap (holding)

variable {h₀ : Heap} {frame : Frame}

theorem holds_framed {h : Heap} {c : Context} (hc : h.Holds c.values)
    (hframe : h.Holds [frame.receiver, .ofHandle frame.active]) (depth : Nat) :
    h.Holds { c with frame, depth }.values := by
  obtain ⟨-, -, hrest⟩ := Context.holds_values.mp hc
  exact Context.holds_values.mpr ⟨hframe.head, hframe.tail.head, hrest⟩

theorem enterFrame (hframe : h₀.Holds [frame.receiver, .ofHandle frame.active]) :
    KeepsClosed h₀ (holding fun _ => []) (IterationEngine.enterFrame frame) :=
  modifyContext fun _ _ hgrows hc => holds_framed hc (hframe.mono hgrows) _

theorem leaveFrame (hframe : h₀.Holds [frame.receiver, .ofHandle frame.active]) :
    KeepsClosed h₀ (holding fun _ => []) (IterationEngine.leaveFrame frame) :=
  modifyContext fun _ _ hgrows hc => holds_framed hc (hframe.mono hgrows) _

end Realm.KeepsClosed

namespace GuestCode.KeepsClosed

open Heap (holding)
open Run.KeepsClosed

variable {guest : GuestCode (H × Journal)} {h₀ : Heap}

theorem runCode (hguest : guest.KeepsClosed) (code : Code) {args : List Value} (hargs : h₀.Holds args) :
    Run.KeepsClosed h₀ (holding fun result => [result]) (IterationEngine.runCode guest code args) := by
  cases code with
  | builtin b => exact lift (.builtin b)
  | guest id => exact hguest h₀ id args hargs
  | absent => exact pure (Heap.holds_undefined h₀)

/-- A call keeps the machine sound, given that the guest code it may run does. -/
theorem callFunction (hguest : guest.KeepsClosed) {f : ObjectId} {v : Value} {args : List Value}
    (hvs : h₀.Holds (.object f :: v :: args)) :
    Run.KeepsClosed h₀ (holding fun result => [result]) (IterationEngine.callFunction guest f v args) := by
  refine (lift .getContext).bind fun context h₁ hgrows₁ hcontext => ?_
  split
  · refine (lift .getHeap).bind fun heap h₂ hgrows₂ _ => ?_
    have hvs := (hvs.mono hgrows₁).mono hgrows₂
    have hcontext : h₂.Holds context.values := hcontext.mono hgrows₂
    have hreceiver := Context.liveIn_effectiveReceiver hcontext hvs.tail.head
    have hentered : h₂.Holds [context.effectiveReceiver v, .object f] :=
      Heap.holds_cons.mpr ⟨hreceiver, .singleton hvs.head⟩
    refine (lift (.enterFrame hentered)).bind fun _ h₃ hgrows₃ _ => ?_
    refine (hguest.runCode _ (hvs.tail.tail.mono hgrows₃)).bind fun result h₄ hgrows₄ hresult => ?_
    obtain ⟨hback, hactive, -⟩ := Context.holds_values.mp hcontext
    have hleft : h₄.Holds [context.frame.receiver, .ofHandle context.frame.active] :=
      ((Heap.holds_cons.mpr ⟨hback, .singleton hactive⟩).mono hgrows₃).mono hgrows₄
    exact andPure (.leaveFrame hleft) hresult
  · exact andPure (.raiseError _ _) (Heap.holds_undefined h₁)

/-- The event of a call tells the truth about it. -/
theorem notedCall (hguest : guest.KeepsClosed) {f : ObjectId} {v : Value} {args : List Value}
    (hvs : h₀.Holds (.object f :: v :: args)) :
    Run.KeepsClosed h₀ (holding fun result => [result])
      ((IterationEngine.callFunction guest f v args).noted (.ofCall f v args)) := by
  refine (hguest.callFunction hvs).noted (fun _ _ _ => rfl) ?_
  intro bound r result r' hr hr' hgrows hgrows' hresult
  exact ⟨hr, hr', hgrows', hvs.mono hgrows, hresult⟩

end GuestCode.KeepsClosed

/-! ## Programs -/

namespace Guest.KeepsClosed

open Heap (holding)
open Run.KeepsClosed

variable {g : Guest (H × Journal)} {h₀ : Heap}

/-- Binding a function to a list iterator. Only with its event in the journal is it known whether it was a function. -/
theorem notedBindNext (g : Guest (H × Journal)) (iterator : ObjectId) (next : Handle) :
    Run.KeepsClosed h₀ (holding fun _ => [])
      (((Command.bindNext iterator next).run g).noted (.ofCommand (.bindNext iterator next))) := by
  intro n a n' hn hgrows h
  obtain ⟨⟨_, n₁⟩, hrun, hnoted⟩ := Option.map_eq_some_iff.mp h
  obtain ⟨-, rfl⟩ := Prod.mk.inj hnoted
  obtain ⟨_, n₀, hrequire, hperform⟩ := Run.bind_eq_some.mp hrun
  obtain ⟨hlive, rfl⟩ := Run.requireLive_eq_some hrequire
  obtain ⟨-, rfl⟩ := Run.lift_eq_some hperform
  have hnext : (Value.ofHandle next).LiveIn n.realm.heap := hlive.tail.head
  have hgrows' := n.realm.grows_bindNext iterator next
  let heap := (ListIterator.bindNext iterator next n.realm).2.heap
  let ev : Event := .performed (.bindNext iterator next) () heap
  have hbinds : (n.journal ++ [ev]).BindsFunctions →
      n.journal.BindsFunctions ∧ ∀ f, next = some f → n.realm.heap.isFunction f = true := by
    intro hb
    refine ⟨hb.of_isPrefix (List.prefix_append _ _), ?_⟩
    rintro f rfl
    have hafter : heap.isFunction f = true := hb ev (List.mem_append_right _ List.mem_cons_self)
    exact hgrows'.isFunction_of_contains (Value.liveIn_object.mp hnext) hafter
  have hclosed := hn.realm.bindNext hnext hbinds iterator
  have hevent : ev.Sound (n.journal ++ [ev]).BindsFunctions :=
    ⟨hclosed.heap, hlive.mono hgrows', Heap.holds_nil _⟩
  exact ⟨hn.noting hgrows' rfl hclosed hevent, hgrows', List.prefix_append _ _, Heap.holds_nil _⟩

theorem notedCommand (hg : g.KeepsClosed) (c : Command) :
    Run.KeepsClosed h₀ (holding c.replyValues) ((c.run g).noted (.ofCommand c)) := by
  by_cases hc : ∃ id f, c = .bindNext id f
  · obtain ⟨id, f, rfl⟩ := hc
    exact notedBindNext g id f
  · have hrun : Run.KeepsClosed h₀ (fun reply h => h.Holds c.operands ∧ h.Holds (c.replyValues reply)) (c.run g) := by
      refine (requireLive c.operands).bind fun _ h _ hlive => ?_
      have hperform := hg.perform (fun id f heq => hc ⟨id, f, heq⟩) hlive
      exact hperform.weaken fun reply h' hgrows hreply => ⟨hlive.mono hgrows, hreply⟩
    refine (hrun.noted (fun _ _ _ => rfl) ?_).weaken fun _ _ _ hreply => hreply.2
    intro bound r reply r' _ hr' _ _ hreply
    exact ⟨hr'.heap, hreply⟩

end Guest.KeepsClosed

namespace Guest.KeepsClosed

open Heap (holding)
open Run.KeepsClosed
open Program (defineFunction updateState)

variable {g : Guest (Embedder S × Journal)} {h₀ : Heap}

/-- A function object for guest code. -/
theorem define (name : String) (arity : UInt32) (body : List Value → Program S) :
    Run.KeepsClosed h₀ (fun id h => h.isFunction id = true) (defineFunction name arity body).beside := by
  intro n id n' hn hgrows h
  let code : Code := .guest ⟨n.unrecorded.host.code.size⟩
  have halloc : Realm.KeepsClosed n.realm.heap (fun id h => h.HasKind id (.function name arity code))
      (Realm.alloc (.ofCode name arity code)) := .createFunction name arity code
  obtain ⟨hclosed, hgrows', hid⟩ := halloc _ n.realm hn.realm (.refl _)
  obtain ⟨rfl, rfl⟩ := Prod.mk.inj (Option.some.inj h)
  have hsound := hn.withRealm hclosed hgrows'
  exact ⟨⟨hsound.realm, hsound.events, hsound.heaps⟩, hgrows', List.prefix_rfl, hid.isFunction⟩

theorem update (change : S → S) :
    Run.KeepsClosed h₀ (holding fun _ => []) (updateState change).beside := by
  intro n state n' hn _ h
  obtain ⟨rfl, rfl⟩ := Prod.mk.inj (Option.some.inj h)
  exact ⟨⟨hn.realm, hn.events, hn.heaps⟩, .refl _, List.prefix_rfl, Heap.holds_nil _⟩

/-- Every program. Its tree may go on in any way after a reply, so the values in it need not be live: a command that is
given another one has no answer. -/
theorem program (hg : g.KeepsClosed) (p : Program S) :
    Run.KeepsClosed h₀ (holding fun c => [c.value]) (p.runNoted g) := by
  induction p generalizing h₀ with
  | finish c => exact (requireLive _).bind fun _ _ _ hc => pure hc
  | perform command next ih => exact (hg.notedCommand command).bind fun reply _ _ _ => ih reply
  | define name arity body next _ ih => exact (define name arity body).bind fun f _ _ _ => ih f
  | forOf iterable body next ihBody ih =>
    refine (requireLive _).bind fun _ h _ hiterable => ?_
    exact (hg.forOf (fun _ v _ => ihBody v) hiterable.head).bind fun c _ _ _ => ih c
  | update change next ih => exact (update change).bind fun state _ _ _ => ih state

theorem code (hg : g.KeepsClosed) : (Program.runGuestNoted g).KeepsClosed := by
  intro h₀ code args _ n v n' hn hgrows h
  unfold Program.runGuestNoted at h
  split at h
  · next body _ =>
    have hbody : Run.KeepsClosed h₀ (holding fun v => [v])
        (do let completion ← (body args).runNoted g; return completion.value) :=
      (hg.program (body args)).bind fun _ _ _ hc => pure hc
    exact hbody n v n' hn hgrows h
  · cases h

end Guest.KeepsClosed

/-- Calls at every depth, by induction on how deeply they may be nested. -/
theorem keepsClosed_guestNoted (rounds nesting : Nat) : (Program.guestNoted (S := S) rounds nesting).KeepsClosed := by
  induction nesting with
  | zero => exact fun _ _ _ _ _ => .diverge
  | succ nesting ih => exact fun _ _ _ _ hvs => ih.code.notedCall hvs

/-- A program that answers leaves a sound machine and answers a live value. -/
theorem Machine.Sound.runWithinNoted {n n' : Machine (Embedder S × Journal)} (hn : n.Sound) {p : Program S}
    {bounds : Program.Bounds} {c : Completion} (h : p.runWithinNoted bounds n = some (c, n')) :
    n'.Sound ∧ n.realm.heap.Grows n'.realm.heap ∧ n.journal <+: n'.journal ∧ n'.realm.heap.Holds [c.value] :=
  (keepsClosed_guestNoted bounds.rounds bounds.nesting).program p n c n' hn (.refl _) h

/-! ## Engines -/

namespace Engine

/-- The engine has been started with success and has run programs since, each to its end; the journal says what
happened in them. -/
inductive Life : Engine S → Journal → Prop
  | start {e : Engine S} : e.Reachable → e.isInitialized = false → e.start.ok = true → Life e.start.engine []
  | run {e : Engine S} {j j' : Journal} {context : Context} {p : Program S} {bounds : Program.Bounds} {c : Completion}
      {m : Machine (Embedder S)} :
      Life e j → e.context = some context →
      p.runWithinNoted bounds ((e.machine context).recording j) = some (c, m.recording j') → Life (e.withMachine m) j'

/-- The engine has a context, its realm is closed, and so was all that the journal tells of. -/
def Sound (e : Engine S) (j : Journal) : Prop :=
  ∃ context, e.context = some context ∧ ((e.machine context).recording j).Sound

/-- A realm without objects, before anything is installed. -/
theorem closed_freshRealm {e : Engine S} (hempty : e.heap.objects = #[]) (bound : Prop) :
    e.freshRealm.Closed bound := by
  have hget : ∀ id o, e.freshRealm.heap.get? id ≠ some o := by
    intro id o ho
    change e.heap.objects[id.index]? = some o at ho
    rw [hempty] at ho
    cases ho
  refine ⟨.of_objects fun id o ho => absurd ho (hget id o), Context.holds_values.mpr ?_⟩
  exact ⟨Value.liveIn_undefined _, Value.liveIn_undefined _, Value.liveIn_undefined _, Value.liveIn_undefined _,
    Heap.holds_nil _⟩

theorem sound_start {e : Engine S} (hreachable : e.Reachable) (hidle : e.isInitialized = false)
    (hok : e.start.ok = true) : e.start.engine.Sound [] := by
  have hfresh := closed_freshRealm (hreachable.inStep.empty hidle)
  obtain ⟨hlive, -⟩ | ⟨-, -, hfailed, -⟩ | ⟨-, -, -, hstart⟩ := e.start_cases
  · exact absurd (hidle.symm.trans hlive) Bool.false_ne_true
  · exact absurd (hfailed.symm.trans hok) Bool.false_ne_true
  · obtain ⟨hclosed, -⟩ := Realm.KeepsClosed.install (Journal.BindsFunctions []) e.freshRealm (hfresh _) (.refl _)
    rw [hstart, installed]
    -- from here on it does not matter what has been installed
    generalize (Intrinsics.install e.freshRealm).2 = realm at hclosed
    exact ⟨realm.context, rfl, hclosed, fun _ hev => absurd hev List.not_mem_nil, List.pairwise_singleton _ _⟩

theorem Life.inStep {e : Engine S} {j : Journal} (h : e.Life j) : e.InStep := by
  induction h with
  | start hreachable => exact hreachable.start.inStep
  | run _ hcontext _ ih => exact ih.withMachine hcontext _

theorem Life.sound {e : Engine S} {j : Journal} (h : e.Life j) : e.Sound j := by
  induction h with
  | start hreachable hidle hok => exact sound_start hreachable hidle hok
  | @run e j j' context p bounds c m _ hcontext hrun ih =>
    obtain ⟨context', hcontext', hsound⟩ := ih
    obtain rfl := Option.some.inj (hcontext.symm.trans hcontext')
    exact ⟨m.realm.context, rfl, (hsound.runWithinNoted hrun).1⟩

theorem Life.history {e : Engine S} {j : Journal} (h : e.Life j) {context : Context}
    (hcontext : e.context = some context) : History (e.machine context) j := by
  induction h generalizing context with
  | start => exact .start _
  | run _ hcontext' hrun ih =>
    obtain rfl := Option.some.inj hcontext
    exact .run (ih hcontext') hrun

/-- A program that is run next goes into the life of the engine. -/
theorem Life.exists_run {e : Engine S} {j : Journal} (h : e.Life j) {context : Context}
    (hcontext : e.context = some context) {p : Program S} {bounds : Program.Bounds} {c : Completion}
    {m : Machine (Embedder S)} (hrun : p.runWithin bounds (e.machine context) = some (c, m)) :
    (∃ j', (e.withMachine m).Life (j ++ j')) ∧ e.heap.Grows m.realm.heap ∧ m.realm.heap.Holds [c.value] := by
  obtain ⟨context', hcontext', hsound⟩ := h.sound
  obtain rfl := Option.some.inj (hcontext.symm.trans hcontext')
  have hnoted := (upheld_ledgered.runWithin bounds p _).exists_right
    (.begin (accounts_of_history (h.history hcontext))) hrun
  obtain ⟨n, hn, hmn⟩ := hnoted
  obtain ⟨j', rfl⟩ := hmn.records.exists_eq_recording
  obtain ⟨-, hgrows, ⟨new, rfl⟩, hc⟩ := hsound.runWithinNoted hn
  exact ⟨⟨new, h.run hcontext hn⟩, hgrows, hc⟩

/-- What programs do when function objects are called by `g`: a sound machine stays sound, its heap grows, and what is
answered is live. -/
structure KeptClosed (g : Guest (Embedder S × Journal)) : Prop where
  call : g.KeepsClosed
  command : ∀ h₀ (c : Command),
    Run.KeepsClosed h₀ (Heap.holding c.replyValues) ((c.run g).noted (.ofCommand c))
  define : ∀ h₀ name arity (body : List Value → Program S),
    Run.KeepsClosed h₀ (fun f h => h.isFunction f = true) (Program.defineFunction name arity body).beside
  forOf : ∀ h₀ (iterable : Value) (body : Value → Program S), iterable.LiveIn h₀ →
    Run.KeepsClosed h₀ (Heap.holding fun c => [c.value]) (Iterator.forOf g iterable fun v => (body v).runNoted g)
  program : ∀ h₀ (p : Program S), Run.KeepsClosed h₀ (Heap.holding fun c => [c.value]) (p.runNoted g)

theorem keptClosed {g : Guest (Embedder S × Journal)} (hg : g.KeepsClosed) : KeptClosed g where
  call := hg
  command _ c := hg.notedCommand c
  define _ name arity body := Guest.KeepsClosed.define name arity body
  forOf _ _ body hiterable := hg.forOf (fun _ v _ => hg.program (body v)) hiterable
  program _ p := hg.program p

/-- What holds at any time in the life of an engine. -/
structure ClosedLife (e : Engine S) (j : Journal) : Prop where
  /-- Whatever is stored is on the heap and of the right class, now and at every call and command at any depth. -/
  sound : e.Sound j
  /-- So it is left by every operation, which answers live values. -/
  operations : ∀ rounds nesting, KeptClosed (Program.guestNoted (S := S) rounds nesting)
  finished : ∀ bounds (p : Program S) c, (e.run bounds p).1 = .finished c →
    (∃ j', (e.run bounds p).2.Life (j ++ j')) ∧ e.heap.Grows (e.run bounds p).2.heap ∧
      (e.run bounds p).2.heap.Holds [c.value]
  unfinished : ∀ bounds (p : Program S), (∀ c, (e.run bounds p).1 ≠ .finished c) → (e.run bounds p).2 = e

/-- The heap of an engine is closed and well-typed at any time in its life. That the function of a list iterator is one
is known if nothing else has been bound; all the rest is known in any case. -/
theorem closed_of_life {e : Engine S} {j : Journal} (h : e.Life j) : ClosedLife e j := by
  obtain ⟨context, hcontext, -⟩ := h.sound
  have hget := h.inStep.getContext_eq hcontext
  refine ⟨h.sound, fun rounds nesting => keptClosed (keepsClosed_guestNoted rounds nesting), ?_, ?_⟩
  · intro bounds p c hfinished
    rw [run_eq hget] at hfinished ⊢
    split at hfinished
    · next c' m hrun =>
      obtain rfl := Outcome.finished.inj hfinished
      exact h.exists_run hcontext hrun
    · cases hfinished
  · intro bounds p hunfinished
    rw [run_eq hget] at hunfinished ⊢
    split at hunfinished
    · next c m _ => exact absurd rfl (hunfinished c)
    · rfl

/-! ## A function that may not advance -/

/-- Makes a list iterator, binds another function to it, and asks it for a result. -/
def rebindAndAsk : Program Unit :=
  .perform (.createListIterator [.boolean true]) fun it =>
    .perform (.createFunction "other" 0 none) fun f =>
      .perform (.bindNext it (some f)) fun _ =>
        .perform (.next (some it) none) fun _ => .finish (.normal .undefined)

/-- The result is refused, and in the end the error for it is pending. -/
theorem closed_of_life_rebindAndAsk :
    ∃ (e : Engine Unit) (j : Journal), e.Life j ∧ j.BindsFunctions ∧ j.length = 5 ∧
      (e.context.bind Context.pending).isSome = true ∧ ClosedLife e j := by
  let e : Engine Unit := { embedder := { state := () } }
  have hstart : e.start.engine.Life [] := .start (.fresh {} {} { state := () }) rfl rfl
  have hcheck : (e.start.engine.context.bind fun context =>
      rebindAndAsk.runWithinNoted ⟨2, 8⟩ ((e.start.engine.machine context).recording [])).any (fun p =>
        p.2.journal.all Event.bindsFunction && p.2.journal.length == 5 && p.2.pending.isSome) = true := by
    decide +kernel
  obtain ⟨⟨c, n⟩, hsome, hn⟩ := (Option.any_eq_true _ _).mp hcheck
  obtain ⟨context, hcontext, hrun⟩ := Option.bind_eq_some_iff.mp hsome
  rw [Bool.and_eq_true, Bool.and_eq_true, beq_iff_eq] at hn
  obtain ⟨⟨hbinds, hlength⟩, hpending⟩ := hn
  have hlife : (e.start.engine.withMachine n.unrecorded).Life n.journal := hstart.run hcontext hrun
  exact ⟨_, _, hlife, List.all_eq_true.mp hbinds, hlength, hpending, closed_of_life hlife⟩

end Engine

end IterationEngine
