import IterationEngine.Proofs.History
import IterationEngine.Proofs.Place

/-!
# Watched runs

Call frames are balanced and bounded.

The interpreter is given here with a watch beside the state of its embedder, which the engine does not see. It keeps
the calls that are running, and it takes down what the context says whenever the code of a call is entered and
whenever running code goes on: after each operation, and at the start of each run of a loop body. `Watched` says that
the context agrees with the watch and that everything taken down so far was in order; it survives every program
(`mirror_guestWatched`, `sim_runWatched`), by induction on the nesting of calls and, for each piece of code, on the
tree of its commands. That every operation leaves the place in the calls where it found it comes with it, since the
running calls are the same before and after.

The result is `callFrames_balanced`.
-/

namespace IterationEngine

variable {H α β : Type}

/-! ## What is watched -/

/-- A call that has passed the check of the depth and has not ended. -/
structure Running where
  function : ObjectId
  /-- The receiver that was passed. -/
  receiver : Value
  /-- The context in which the function was called. -/
  caller : Context

/-- What the code of a running call has to see of itself. -/
def Running.frame (c : Running) : Frame where
  receiver := c.caller.effectiveReceiver c.receiver
  active := some c.function

inductive Moment where
  /-- The code of a call is about to run. -/
  | entered
  /-- Running code goes on after an operation, or with a run of a loop body. -/
  | resumed
  deriving DecidableEq, Repr

/-- The context at some moment, with the calls that were running, the innermost first. -/
structure Sight where
  moment : Moment
  running : List Running
  context : Context

structure Watch where
  running : List Running := []
  sights : List Sight := []

/-- The place of code that runs within the given calls, `base` being the place outside all of them. -/
def Place.within (base : Place) (running : List Running) : Place where
  frame := (running.head?.map Running.frame).getD base.frame
  depth := base.depth + running.length

/-- What a context has to say at a moment, `base` being the place outside all watched calls. -/
structure Sight.Sound (base : Place) (s : Sight) : Prop where
  frame : s.context.frame = (s.running.head?.map Running.frame).getD base.frame
  depth : s.context.depth = base.depth + s.running.length
  entered : s.moment = .entered →
    s.running ≠ [] ∧ 1 ≤ s.context.depth ∧ (s.context.depth : Int) ≤ s.context.maxDepth
  settled : s.context.Settled

namespace Machine

/-- The place of a machine in the calls. -/
def place (m : Machine H) : Place := m.realm.context.place

/-- The machine with a watch beside the state of its embedder. -/
def watching (m : Machine H) (w : Watch) : Machine (H × Watch) := { realm := m.realm, host := (m.host, w) }

/-- The machine without its watch. -/
def unwatched (n : Machine (H × Watch)) : Machine H := { realm := n.realm, host := n.host.1 }

def watch (n : Machine (H × Watch)) : Watch := n.host.2

/-- The machine after its watch has taken down what the context says. -/
def sighting (n : Machine (H × Watch)) (moment : Moment) : Machine (H × Watch) :=
  n.unwatched.watching
    { n.watch with sights := n.watch.sights ++ [{ moment, running := n.watch.running, context := n.realm.context }] }

/-- The machine with other calls running, as far as its watch knows. -/
def withRunning (n : Machine (H × Watch)) (running : List Running) : Machine (H × Watch) :=
  n.unwatched.watching { n.watch with running }

end Machine

namespace Run

/-- The run with a watch beside it that takes nothing down. -/
def unseen (x : Run H α) : Run (H × Watch) α := fun n =>
  (x n.unwatched).map fun p => (p.1, p.2.watching n.watch)

/-- Takes down what the context says. -/
def sight (moment : Moment) : Run (H × Watch) Unit := fun n => some ((), n.sighting moment)

/-- A call begins. -/
def beginCall (c : Running) : Run (H × Watch) Unit := fun n => some ((), n.withRunning (c :: n.watch.running))

/-- The innermost call ends. -/
def endCall : Run (H × Watch) Unit := fun n => some ((), n.withRunning n.watch.running.tail)

end Run

/-! ## The interpreter with a watch -/

/-- Calls a function object and watches the call. -/
def callWatched (guest : GuestCode (H × Watch)) (function : ObjectId) (receiver : Value) (args : List Value) :
    Run (H × Watch) Value := do
  let context ← Realm.getContext
  if context.canCall then
    let heap ← Realm.getHeap
    enterFrame { receiver := context.effectiveReceiver receiver, active := some function }
    Run.beginCall { function, receiver, caller := context }
    Run.sight .entered
    let result ← runCode guest ((heap.code? function).getD .absent) args
    Run.endCall
    leaveFrame context.frame
    return result
  else
    Realm.raiseError .rangeError "Maximum call stack size exceeded"
    return .undefined

namespace Program

variable {S : Type}

/-- Runs a program and watches its operations. -/
def runWatched (g : Guest (Embedder S × Watch)) : Program S → Run (Embedder S × Watch) Completion
  | finish completion => do
    Run.requireLive [completion.value]
    return completion
  | perform command next => do
    let reply ← command.run g
    Run.sight .resumed
    runWatched g (next reply)
  | define name arity body next => do
    let function ← (defineFunction name arity body).unseen
    Run.sight .resumed
    runWatched g (next function)
  | forOf iterable body next => do
    Run.requireLive [iterable]
    let completion ← Iterator.forOf g iterable fun v => do
      Run.sight .resumed
      runWatched g (body v)
    Run.sight .resumed
    runWatched g (next completion)
  | update change next => do
    let state ← (updateState change).unseen
    runWatched g (next state)

/-- Runs a piece of guest code and watches its operations. -/
def runGuestWatched (g : Guest (Embedder S × Watch)) : GuestCode (Embedder S × Watch) := fun code args n =>
  match n.host.1.code[code.index]? with
  | some body => (do let completion ← runWatched g (body args); return completion.value) n
  | none => none

/-- How function objects are called, with a watch on every call. -/
def guestWatched (rounds : Nat) : (nesting : Nat) → Guest (Embedder S × Watch)
  | 0 => { call := fun _ _ _ => Run.diverge, rounds }
  | nesting + 1 => { call := callWatched (runGuestWatched (guestWatched rounds nesting)), rounds }

/-- Runs a program within bounds, with a watch. -/
def runWithinWatched (bounds : Bounds) (p : Program S) : Run (Embedder S × Watch) Completion :=
  runWatched (guestWatched bounds.rounds bounds.nesting) p

end Program

/-! ## The context agrees with the watch -/

/-- `n` is the machine `m` with a watch beside it, which knows the given calls to be running; so does the context, and
every sight was in order. -/
structure Watched (base : Place) (running : List Running) (m : Machine H) (n : Machine (H × Watch)) : Prop where
  same : n.unwatched = m
  stack : n.watch.running = running
  place : m.place = base.within running
  sights : ∀ s ∈ n.watch.sights, s.Sound base

namespace Watched

variable {base : Place} {running : List Running} {m : Machine H} {n : Machine (H × Watch)}

theorem realm (h : Watched base running m n) : n.realm = m.realm := congrArg Machine.realm h.same

theorem start (m : Machine H) : Watched m.place [] m (m.watching {}) where
  same := rfl
  stack := rfl
  place := rfl
  sights := by
    intro s hs
    cases hs

/-- A change of the realm that keeps the place is not seen. -/
theorem withRealm (h : Watched base running m n) {r : Realm} (hr : r.context.place = m.place) :
    Watched base running (m.withRealm r) (n.withRealm r) := by
  obtain ⟨rfl, hstack, hplace, hsights⟩ := h
  exact ⟨rfl, hstack, hr.trans hplace, hsights⟩

theorem sighting (h : Watched base running m n) {moment : Moment}
    (hentered : moment = .entered → running ≠ [] ∧ (m.realm.context.depth : Int) ≤ m.realm.context.maxDepth) :
    Watched base running m (n.sighting moment) := by
  have hcontext : n.realm.context = m.realm.context := by rw [h.realm]
  have hframe : m.realm.context.frame = (running.head?.map Running.frame).getD base.frame :=
    congrArg Place.frame h.place
  have hdepth : m.realm.context.depth = base.depth + running.length := congrArg Place.depth h.place
  refine ⟨h.same, h.stack, h.place, ?_⟩
  intro s hs
  rcases List.mem_append.mp hs with hold | hnew
  · exact h.sights s hold
  · obtain rfl := List.mem_singleton.mp hnew
    refine ⟨?_, ?_, ?_, n.realm.context.settled⟩
    · show n.realm.context.frame = _
      rw [hcontext, h.stack, hframe]
    · show n.realm.context.depth = _
      rw [hcontext, h.stack, hdepth]
    · intro hmoment
      obtain ⟨hcall, hmax⟩ := hentered hmoment
      have hpos : 0 < running.length := List.length_pos_iff.mpr hcall
      show n.watch.running ≠ [] ∧ 1 ≤ n.realm.context.depth ∧
        (n.realm.context.depth : Int) ≤ n.realm.context.maxDepth
      rw [hcontext, h.stack]
      exact ⟨hcall, by omega, hmax⟩

theorem resumed (h : Watched base running m n) : Watched base running m (n.sighting .resumed) := by
  refine h.sighting ?_
  intro hmoment
  cases hmoment

/-- A sight before a run changes nothing else. -/
theorem sim_sight {x : Run H α} {y : Run (H × Watch) α} (hxy : Run.Sim (Watched base running) x y) :
    Run.Sim (Watched base running) x (do Run.sight .resumed; y) :=
  fun m n hmn => hxy m (n.sighting .resumed) hmn.resumed

theorem sim_action {x : Action α} (hx : Realm.KeepsPlace x) :
    Run.Sim (Watched (H := H) base running) (liftM x) (liftM x) := by
  intro m n hmn
  rw [Run.lift_apply, Run.lift_apply, hmn.realm]
  exact .some ⟨rfl, hmn.withRealm (hx m.realm)⟩

/-- A run that keeps the place may go on unseen. -/
theorem sim_unseen {x : Run H α} (hx : ∀ {m m' : Machine H} {a : α}, x m = some (a, m') → m'.place = m.place) :
    Run.Sim (Watched base running) x x.unseen := by
  intro m n hmn
  obtain ⟨rfl, hstack, hplace, hsights⟩ := hmn
  unfold Run.unseen
  cases hrun : x n.unwatched with
  | none => exact .none
  | some p => exact .some ⟨rfl, rfl, hstack, (hx hrun).trans hplace, hsights⟩

/-- Calls of guest code aside, `Watched` survives what the engine does. -/
theorem mirror {g : Guest H} {g' : Guest (H × Watch)}
    (hcall : ∀ f v args, Run.Sim (Watched base running) (g.call f v args) (g'.call f v args))
    (hrounds : g.rounds = g'.rounds) : Mirror (Watched base running) g g' where
  realm := Watched.realm
  quiet := by
    intro m n r hmn hquiet
    have hplace := congrArg Context.place hquiet.context
    exact hmn.withRealm hplace
  call := hcall
  rounds := hrounds

theorem sim_command {g : Guest H} {g' : Guest (H × Watch)} (M : Mirror (Watched base running) g g') (c : Command) :
    Run.Sim (Watched base running) (c.run g) (c.run g') := by
  refine (Run.Sim.requireLive M.realm _).bind fun _ => ?_
  refine M.command (fun v => sim_action (.raise v)) c fun x hx => ?_
  exact sim_action (.ofCommand hx)

end Watched

/-! ## Calls -/

section Calls

variable {base : Place} {running : List Running} {guest : GuestCode H} {guest' : GuestCode (H × Watch)}

theorem sim_runCode (hguest : ∀ code args, Run.Sim (Watched base running) (guest code args) (guest' code args))
    (code : Code) (args : List Value) :
    Run.Sim (Watched base running) (runCode guest code args) (runCode guest' code args) := by
  cases code with
  | builtin b => exact Watched.sim_action (.builtin b)
  | guest id => exact hguest id args
  | absent => exact .pure _

/-- A machine that enters the frame of a call, on which the watch is put. -/
theorem Watched.enter {m : Machine H} {n : Machine (H × Watch)} (h : Watched base running m n)
    (hcan : m.realm.context.canCall = true) (f : ObjectId) (v : Value) :
    Watched base (⟨f, v, m.realm.context⟩ :: running)
      (m.withRealm (enterFrame (m.realm.calleeFrame f v) m.realm).2)
      (((n.withRealm (enterFrame (m.realm.calleeFrame f v) n.realm).2).withRunning
        (⟨f, v, m.realm.context⟩ :: n.watch.running)).sighting .entered) := by
  obtain ⟨rfl, rfl, hplace, hsights⟩ := h
  have hdepth : n.unwatched.realm.context.depth = base.depth + n.watch.running.length :=
    congrArg Place.depth hplace
  have hbegun : Watched base (⟨f, v, n.unwatched.realm.context⟩ :: n.watch.running)
      (n.unwatched.withRealm (enterFrame (n.unwatched.realm.calleeFrame f v) n.realm).2)
      ((n.withRealm (enterFrame (n.unwatched.realm.calleeFrame f v) n.realm).2).withRunning
        (⟨f, v, n.unwatched.realm.context⟩ :: n.watch.running)) := by
    refine ⟨rfl, rfl, ?_, hsights⟩
    show Place.mk _ (n.unwatched.realm.context.depth + 1) = Place.mk _ (base.depth + (n.watch.running.length + 1))
    rw [hdepth, Nat.add_assoc]
    rfl
  refine hbegun.sighting fun _ => ⟨List.cons_ne_nil _ _, ?_⟩
  have hlt : (n.unwatched.realm.context.depth : Int) < n.unwatched.realm.context.maxDepth := of_decide_eq_true hcan
  show ((n.unwatched.realm.context.depth + 1 : Nat) : Int) ≤ n.unwatched.realm.context.maxDepth
  omega

/-- A machine that leaves the frame of the innermost call for the frame it was called from. -/
theorem Watched.leave {c : Running} {back : Frame} {m : Machine H} {n : Machine (H × Watch)}
    (h : Watched base (c :: running) m n) (hback : back = (base.within running).frame) :
    Watched base running (m.withRealm (leaveFrame back m.realm).2)
      ((n.withRunning n.watch.running.tail).withRealm (leaveFrame back n.realm).2) := by
  obtain ⟨rfl, hstack, hplace, hsights⟩ := h
  have hdepth : n.unwatched.realm.context.depth = base.depth + (running.length + 1) := congrArg Place.depth hplace
  refine ⟨rfl, ?_, ?_, hsights⟩
  · show n.watch.running.tail = running
    rw [hstack, List.tail_cons]
  · show Place.mk back (n.unwatched.realm.context.depth - 1) = Place.mk _ (base.depth + running.length)
    rw [hback, hdepth, ← Nat.add_assoc, Nat.add_sub_cancel]
    rfl

/-- A call that has passed the check of the depth, from where its code is about to run. -/
theorem callWatched_of_canCall (guest : GuestCode (H × Watch)) (f : ObjectId) (v : Value) (args : List Value)
    {n : Machine (H × Watch)} (hcan : n.realm.context.canCall = true) :
    callWatched guest f v args n = (do
      let result ← runCode guest ((n.realm.heap.code? f).getD .absent) args
      Run.endCall
      leaveFrame n.realm.context.frame
      return result : Run (H × Watch) Value)
        (((n.withRealm (enterFrame (n.realm.calleeFrame f v) n.realm).2).withRunning
          (⟨f, v, n.realm.context⟩ :: n.watch.running)).sighting .entered) := by
  unfold callWatched
  rw [Run.getContext_bind_apply, if_pos hcan, Run.getHeap_bind_apply]
  rfl

theorem callWatched_of_limit (guest : GuestCode (H × Watch)) (f : ObjectId) (v : Value) (args : List Value)
    {n : Machine (H × Watch)} (hcan : ¬ n.realm.context.canCall = true) :
    callWatched guest f v args n =
      some (.undefined, n.withError .rangeError "Maximum call stack size exceeded") := by
  unfold callWatched
  rw [Run.getContext_bind_apply, if_neg hcan]
  rfl

/-- A call is watched without being changed, given that the guest code behind it is, whatever calls are running. -/
theorem sim_callWatched
    (hguest : ∀ running code args, Run.Sim (Watched base running) (guest code args) (guest' code args))
    (f : ObjectId) (v : Value) (args : List Value) :
    Run.Sim (Watched base running) (callFunction guest f v args) (callWatched guest' f v args) := by
  intro m n hmn
  obtain rfl := hmn.same
  by_cases hcan : n.realm.context.canCall = true
  · have hback : n.realm.context.frame = (base.within running).frame := congrArg Place.frame hmn.place
    have hcode := sim_runCode (hguest (⟨f, v, n.realm.context⟩ :: running))
      ((n.realm.heap.code? f).getD .absent) args _ _ (hmn.enter hcan f v)
    rw [callFunction_of_canCall guest f v args hcan, callWatched_of_canCall guest' f v args hcan]
    rw [runFramed_apply]
    exact Run.Sim.rel_bind hcode fun a m' n' h => .some ⟨rfl, h.leave hback⟩
  · rw [callFunction_of_limit guest f v args hcan, callWatched_of_limit guest' f v args hcan]
    exact .some ⟨rfl, hmn.withRealm rfl⟩

end Calls

/-! ## Programs -/

section Programs

open Program

variable {S : Type} {base : Place} {running : List Running}

theorem place_defineFunction (name : String) (arity : UInt32) (body : List Value → Program S)
    {m m' : Machine (Embedder S)} {id : ObjectId} (h : defineFunction name arity body m = some (id, m')) :
    m'.place = m.place := by
  cases h
  rfl

theorem place_updateState (change : S → S) {m m' : Machine (Embedder S)} {s : S}
    (h : updateState change m = some (s, m')) : m'.place = m.place := by
  cases h
  rfl

/-- A program, given that calls of function objects are known. -/
theorem sim_runWatched {g : Guest (Embedder S)} {g' : Guest (Embedder S × Watch)}
    (M : Mirror (Watched base running) g g') (p : Program S) :
    Run.Sim (Watched base running) (p.run g) (p.runWatched g') := by
  induction p with
  | finish c => exact (Run.Sim.requireLive M.realm _).bind fun _ => .pure c
  | perform command next ih =>
    exact (Watched.sim_command M command).bind fun reply => Watched.sim_sight (ih reply)
  | define name arity body next _ ih =>
    have hdefine : Run.Sim (Watched base running) (defineFunction name arity body)
        (defineFunction name arity body).unseen := Watched.sim_unseen (place_defineFunction name arity body)
    exact hdefine.bind fun f => Watched.sim_sight (ih f)
  | forOf iterable body next ihBody ih =>
    refine (Run.Sim.requireLive M.realm _).bind fun _ => ?_
    refine (M.forOf (fun v => Watched.sim_sight (ihBody v)) iterable).bind fun c => ?_
    exact Watched.sim_sight (ih c)
  | update change next ih =>
    exact (Watched.sim_unseen (place_updateState change)).bind ih

theorem sim_runGuestWatched {g : Guest (Embedder S)} {g' : Guest (Embedder S × Watch)}
    (M : Mirror (Watched base running) g g') (code : CodeId) (args : List Value) :
    Run.Sim (Watched base running) (runGuest g code args) (runGuestWatched g' code args) := by
  intro m n hmn
  obtain rfl := hmn.same
  unfold runGuest runGuestWatched
  show Option.Rel _ (match n.host.1.code[code.index]? with
    | some body => (do let completion ← run g (body args); return completion.value) n.unwatched
    | none => none) _
  cases n.host.1.code[code.index]? with
  | none => exact .none
  | some body => exact ((sim_runWatched M (body args)).bind fun c => .pure c.value) _ _ hmn

/-- Calls at every depth, by induction on how deeply they may be nested. -/
theorem mirror_guestWatched (base : Place) (rounds nesting : Nat) (running : List Running) :
    Mirror (Watched base running) (guest (S := S) rounds nesting) (guestWatched rounds nesting) := by
  induction nesting generalizing running with
  | zero => exact Watched.mirror (fun _ _ _ => .diverge) rfl
  | succ nesting ih =>
    refine Watched.mirror (fun f v args => ?_) rfl
    exact sim_callWatched (fun running code args => sim_runGuestWatched (ih running) code args) f v args

/-- An operation that is watched without being changed ends at the place where it began. -/
theorem place_of_sim {x : Run (Embedder S) α} {y : Run (Embedder S × Watch) α} {m m' : Machine (Embedder S)} {a : α}
    (hxy : Run.Sim (Watched m.place []) x y) (hx : x m = some (a, m')) : m'.place = m.place := by
  obtain ⟨n', -, hn'⟩ := hxy.exists_right (Watched.start m) hx
  exact hn'.place

end Programs

/-! ## Frames -/

/-- Calls are balanced and bounded. Each operation, loop and call, and each program, ends at the place in the calls
where it began. The code of a running call sees itself as the active function, the receiver as it was made for the
call, and a depth that counts the running calls and is within the limit. A call at the limit runs nothing. -/
structure BalancedFrames (S : Type) : Prop where
  command : ∀ (rounds nesting : Nat) (c : Command) {m m' : Machine (Embedder S)} {reply : c.Reply},
    c.run (Program.guest rounds nesting) m = some (reply, m') → m'.place = m.place
  forOf : ∀ (rounds nesting : Nat) (iterable : Value) (body : Value → Program S) {m m' : Machine (Embedder S)}
    {c : Completion},
    Iterator.forOf (Program.guest rounds nesting) iterable
      (fun v => (body v).run (Program.guest rounds nesting)) m = some (c, m') → m'.place = m.place
  call : ∀ (rounds nesting : Nat) (f : ObjectId) (v : Value) (args : List Value) {m m' : Machine (Embedder S)}
    {result : Value},
    callFunction (Program.runGuest (Program.guest rounds nesting)) f v args m = some (result, m') →
      m'.place = m.place
  program : ∀ (bounds : Program.Bounds) (p : Program S) {m m' : Machine (Embedder S)} {c : Completion},
    p.runWithin bounds m = some (c, m') → m'.place = m.place
  sights : ∀ (bounds : Program.Bounds) (p : Program S) {m m' : Machine (Embedder S)} {c : Completion},
    p.runWithin bounds m = some (c, m') →
      ∃ w : Watch, p.runWithinWatched bounds (m.watching {}) = some (c, m'.watching w) ∧ w.running = [] ∧
        ∀ s ∈ w.sights, s.Sound m.place
  limit : ∀ (guest : GuestCode (Embedder S)) (f : ObjectId) (v : Value) (args : List Value)
    {m : Machine (Embedder S)}, m.realm.context.maxDepth ≤ m.realm.context.depth →
      ∃ r : Realm, callFunction guest f v args m = some (.undefined, m.withRealm r) ∧ r.context.place = m.place ∧
        m.realm.Raised r .rangeError "Maximum call stack size exceeded"

theorem callFrames_balanced (S : Type) : BalancedFrames S where
  command rounds nesting c _ _ _ h :=
    place_of_sim (Watched.sim_command (mirror_guestWatched _ rounds nesting []) c) h
  forOf rounds nesting iterable body m _ _ h := by
    have M := mirror_guestWatched (S := S) m.place rounds nesting []
    exact place_of_sim (M.forOf (fun v => sim_runWatched M (body v)) iterable) h
  call rounds nesting f v args _ _ _ h :=
    place_of_sim ((mirror_guestWatched _ rounds (nesting + 1) []).call f v args) h
  program bounds p _ _ _ h :=
    place_of_sim (sim_runWatched (mirror_guestWatched _ bounds.rounds bounds.nesting []) p) h
  sights bounds p m m' c h := by
    have hsim := sim_runWatched (mirror_guestWatched m.place bounds.rounds bounds.nesting []) p
    obtain ⟨n', hrun, hn'⟩ := hsim.exists_right (Watched.start m) h
    obtain rfl := hn'.same
    exact ⟨n'.watch, hrun, hn'.stack, hn'.sights⟩
  limit guest f v args m hlimit := by
    have hcan : ¬ m.realm.context.canCall = true := by
      intro hcan
      have hlt : (m.realm.context.depth : Int) < m.realm.context.maxDepth := of_decide_eq_true hcan
      omega
    exact ⟨_, callFunction_of_limit guest f v args hcan, rfl, m.realm.raised_withError _ _⟩

/-! ## A call within a call -/

/-- Makes two functions, of which the second calls the first, and calls the second. -/
def callWithin : Program Unit :=
  .define "inner" 0 (fun _ => .finish (.normal .null)) fun inner =>
    .define "outer" 0 (fun _ => .perform (.call (.object inner) .null []) fun v => .finish (.normal v)) fun outer =>
      .perform (.call (.object outer) .null []) fun v => .finish (.normal v)

/-- The machine of `embeddingMachine` with as many calls running as there may be. -/
def crowdedMachine : Machine (Embedder Unit) :=
  embeddingMachine.withRealm
    { embeddingMachine.realm with context := { embeddingMachine.realm.context with depth := 10 } }

/-- The depth goes up to two and back again. Where no more calls may be running, another one runs nothing. -/
theorem callFrames_balanced_callWithin :
    (∃ (m' : Machine (Embedder Unit)) (w : Watch),
      callWithin.runWithinWatched ⟨2, 8⟩ (embeddingMachine.watching {}) = some (.normal .null, m'.watching w) ∧
      m'.place = embeddingMachine.place ∧ w.running = [] ∧ w.sights.map (·.context.depth) = [0, 0, 1, 2, 1, 0] ∧
      ∀ s ∈ w.sights, s.Sound embeddingMachine.place) ∧
    ∃ r : Realm, callFunction (Program.runGuest (Program.guest 8 2)) ⟨0⟩ .null [] crowdedMachine =
        some (.undefined, crowdedMachine.withRealm r) ∧
      crowdedMachine.realm.Raised r .rangeError "Maximum call stack size exceeded" := by
  have hbalanced := callFrames_balanced Unit
  constructor
  · have hcheck : (callWithin.runWithin ⟨2, 8⟩ embeddingMachine).map Prod.fst = some (.normal .null) := by
      decide +kernel
    have hdepths : (callWithin.runWithinWatched ⟨2, 8⟩ (embeddingMachine.watching {})).any
        (fun p => p.2.watch.sights.map (·.context.depth) == [0, 0, 1, 2, 1, 0]) = true := by decide +kernel
    obtain ⟨⟨_, m'⟩, hrun, rfl⟩ := Option.map_eq_some_iff.mp hcheck
    obtain ⟨w, hw, hrunning, hsights⟩ := hbalanced.sights _ _ hrun
    rw [hw] at hdepths
    exact ⟨m', w, hw, hbalanced.program _ _ hrun, hrunning, beq_iff_eq.mp hdepths, hsights⟩
  · have hlimit : crowdedMachine.realm.context.maxDepth ≤ crowdedMachine.realm.context.depth := by decide
    obtain ⟨r, hcall, -, hraised⟩ := hbalanced.limit (Program.runGuest (Program.guest 8 2)) ⟨0⟩ .null [] hlimit
    exact ⟨r, hcall, hraised⟩

end IterationEngine
