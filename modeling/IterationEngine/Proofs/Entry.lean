import IterationEngine.Proofs.Commands
import IterationEngine.Proofs.Origin

/-!
# How guest code is entered

The engine enters guest code with no exception pending.

Guest code may leave an exception pending whenever it is run, and the next run of guest code may be several functions
and rounds of a loop away. In between the engine has to look for the exception, or to take it.

1. `Guest.AgreesClear`: an operation does the same with any guest code that differs only where an exception is pending.
   This holds of each operation from every machine with none pending, whether or not it comes to an end.
2. `entersClear_command`: so guest code that does not answer there may stand in for all guest code, and then a journal
   has no other entries than those it should have.
3. `clearEntries`: both, for all operations.
-/

namespace IterationEngine

variable {H α β : Type}

/-! ## Runs that agree -/

/-- The runs are the same from every machine with no exception pending. -/
def Run.AgreeClear (x y : Run H α) : Prop := ∀ m : Machine H, m.pending = none → x m = y m

namespace Run.AgreeClear

variable {x y : Run H α}

theorem refl (x : Run H α) : AgreeClear x x := fun _ _ => rfl

theorem bind {f k : α → Run H β} (hxy : AgreeClear x y)
    (hfk : ∀ {m a m'}, x m = some (a, m') → f a m' = k a m') : AgreeClear (x >>= f) (y >>= k) := by
  intro m hm
  calc (x >>= f) m
      = (x >>= k) m := Run.bind_congr fun a m' h => hfk h
    _ = (y >>= k) m := Run.bind_congr_left (hxy m hm) k

/-- An operation that looks for an exception after its first part may go on as if there could be none. -/
theorem checked {f k failed : α → Run H β} (hxy : AgreeClear x y) (hfk : ∀ a, AgreeClear (f a) (k a)) :
    AgreeClear (do let a ← x; if ← Realm.isPending then failed a else f a)
      (do let a ← y; if ← Realm.isPending then failed a else k a) := by
  refine hxy.bind fun {_ a m'} _ => ?_
  cases hp : m'.pending with
  | none =>
    rw [Run.ifPending_of_none hp, Run.ifPending_of_none hp]
    exact hfk a m' hp
  | some e => rw [Run.ifPending_of_pending hp, Run.ifPending_of_pending hp]

/-- So may one whose first part answers nothing if it leaves an exception. -/
theorem signalled {x y : Run H (Option α)} {f k : Option α → Run H β} (hxy : AgreeClear x y) (hx : x.Signals)
    (hnone : f none = k none) (hsome : ∀ a, AgreeClear (f (some a)) (k (some a))) :
    AgreeClear (x >>= f) (y >>= k) := by
  refine hxy.bind fun {_ a m'} h => ?_
  cases a with
  | none => rw [hnone]
  | some a => exact hsome a m' (Iterator.pending_of_signals hx h)

/-- An action before both runs. -/
theorem action {z : Action β} {f k : β → Run H α} (hz : ∀ r : Realm, (z r).2.context.pending = r.context.pending)
    (hfk : ∀ b, AgreeClear (f b) (k b)) : AgreeClear (liftM z >>= f) (liftM z >>= k) := by
  intro m hm
  rw [Run.lift_bind_apply, Run.lift_bind_apply]
  exact hfk _ _ ((hz m.realm).trans hm)

end Run.AgreeClear

/-- Guest code that is the same where no exception is pending, and may be anything elsewhere. -/
structure Guest.AgreesClear (g g' : Guest H) : Prop where
  call : ∀ f v args, Run.AgreeClear (g.call f v args) (g'.call f v args)
  rounds : g.rounds = g'.rounds

namespace Guest.AgreesClear

variable {g g' : Guest H}

/-! ## Access -/

theorem get (h : g.AgreesClear g') (id : ObjectId) (key : String) (receiver : Value) :
    Run.AgreeClear (Access.get g id key receiver) (Access.get g' id key receiver) := by
  refine .action (fun _ => rfl) fun heap => ?_
  split
  · exact .refl _
  · split
    · exact h.call _ _ _
    · exact .refl _
  · exact .refl _

theorem getFrom (h : g.AgreesClear g') (object : Handle) (key : String) :
    Run.AgreeClear (Access.getFrom g object key) (Access.getFrom g' object key) := by
  cases object with
  | some id => exact h.get id key _
  | none => exact .refl _

theorem getV (h : g.AgreesClear g') (v : Value) (key : String) :
    Run.AgreeClear (Access.getV g v key) (Access.getV g' v key) := by
  cases v with
  | object id => exact h.get id key _
  | undefined | null | boolean | number | string | symbol => exact .refl _

theorem getMethod (h : g.AgreesClear g') (v : Value) (key : String) :
    Run.AgreeClear (Access.getMethod g v key) (Access.getMethod g' v key) :=
  (h.getV v key).checked fun _ => .refl _

theorem callValue (h : g.AgreesClear g') (callable receiver : Value) (args : List Value) :
    Run.AgreeClear (Access.call g callable receiver args) (Access.call g' callable receiver args) := by
  refine .action (fun _ => rfl) fun heap => ?_
  split
  · exact h.call _ _ _
  · exact .refl _

theorem invoke (h : g.AgreesClear g') (v : Value) (key : String) (args : List Value) :
    Run.AgreeClear (Access.invoke g v key args) (Access.invoke g' v key args) := by
  refine (h.getV v key).checked fun method => .action (fun _ => rfl) fun heap => ?_
  split
  · exact h.call _ _ _
  · exact .refl _

/-! ## The protocol -/

theorem ofMethod (h : g.AgreesClear g') (v method : Value) :
    Run.AgreeClear (Iterator.ofMethod g v method) (Iterator.ofMethod g' v method) :=
  (h.callValue method v []).checked fun _ => .refl _

theorem of (h : g.AgreesClear g') (v : Value) : Run.AgreeClear (Iterator.of g v) (Iterator.of g' v) := by
  refine .action (fun _ => rfl) fun context => (h.getMethod v _).checked fun method => ?_
  cases method with
  | some f => exact h.ofMethod v _
  | none => exact .refl _

theorem next (h : g.AgreesClear g') (iterator : Handle) (argument : Option Value) :
    Run.AgreeClear (Iterator.next g iterator argument) (Iterator.next g' iterator argument) :=
  (h.invoke _ _ _).checked fun _ => .refl _

theorem isDone (h : g.AgreesClear g') (result : ObjectId) :
    Run.AgreeClear (Iterator.isDone g result) (Iterator.isDone g' result) :=
  (h.getFrom _ _).checked fun _ => .refl _

theorem value (h : g.AgreesClear g') (result : ObjectId) :
    Run.AgreeClear (Iterator.value g result) (Iterator.value g' result) :=
  h.getFrom _ _

theorem step (h : g.AgreesClear g') (iterator : Handle) :
    Run.AgreeClear (Iterator.step g iterator) (Iterator.step g' iterator) := by
  refine (h.next iterator none).signalled (Iterator.signals_next g iterator none) rfl fun result => ?_
  exact (h.isDone result).checked fun _ => .refl _

theorem isIterable (h : g.AgreesClear g') (v : Value) :
    Run.AgreeClear (Iterator.isIterable g v) (Iterator.isIterable g' v) := by
  unfold Iterator.isIterable
  split
  · exact .action (fun _ => rfl) fun context => (h.getV v _).checked fun _ => .refl _
  · exact .refl _

theorem closeWith (h : g.AgreesClear g') (iterator : Handle) (c : Completion) :
    Run.AgreeClear (Iterator.closeWith g iterator c) (Iterator.closeWith g' iterator c) := by
  refine (h.getMethod _ _).checked fun method => ?_
  cases method with
  | none => exact .refl _
  -- what the call leaves pending is taken, and nothing is run after that
  | some f => exact (h.call _ _ _).bind fun _ => rfl

/-- Closing takes what is pending at its start, so this holds from every machine. -/
theorem close (h : g.AgreesClear g') (iterator : Handle) (c : Completion) :
    Iterator.close g iterator c = Iterator.close g' iterator c := by
  funext m
  rw [Iterator.close_apply, Iterator.close_apply]
  exact h.closeWith iterator _ m.settled rfl

/-! ## Consumers -/

theorem item (h : g.AgreesClear g') (iterator : ObjectId) :
    Run.AgreeClear (Iterator.item g iterator) (Iterator.item g' iterator) := by
  refine (h.step _).checked fun result => ?_
  cases result with
  | none => exact .refl _
  | some r => exact (h.value r).checked fun _ => .refl _

/-- A round of a consumer goes on only with a value, and then no exception is pending. -/
theorem round (h : g.AgreesClear g') (iterator : ObjectId) {f k : Iterator.Item → Run H β}
    (hvalue : ∀ v, Run.AgreeClear (f (.value v)) (k (.value v))) (hfailed : f .failed = k .failed)
    (hexhausted : f .exhausted = k .exhausted) :
    Run.AgreeClear (Iterator.item g iterator >>= f) (Iterator.item g' iterator >>= k) := by
  refine (h.item iterator).bind fun {_ x m'} hx => ?_
  cases x with
  | failed => rw [hfailed]
  | exhausted => rw [hexhausted]
  | value v => exact hvalue v m' ((Iterator.taken_of_item hx).pending nofun)

theorem drain (h : g.AgreesClear g') (rounds : Nat) (iterator : ObjectId) (taken : Array Value) :
    Run.AgreeClear (Iterator.drain g rounds iterator taken) (Iterator.drain g' rounds iterator taken) := by
  induction rounds generalizing taken with
  | zero => exact .refl _
  | succ rounds ih => exact h.round iterator (fun v => ih _) rfl rfl

theorem toList (h : g.AgreesClear g') (iterable : Value) (method : Option Value) :
    Run.AgreeClear (Iterator.toList g iterable method) (Iterator.toList g' iterable method) := by
  rw [Iterator.toList_eq, Iterator.toList_eq, ← h.rounds]
  cases method with
  | none =>
    refine (h.of iterable).signalled (Iterator.signals_of g iterable) rfl fun iterator => ?_
    exact h.drain _ iterator #[]
  | some method =>
    refine (h.ofMethod iterable method).signalled (Iterator.signals_ofMethod g iterable method) rfl fun iterator => ?_
    exact h.drain _ iterator #[]

theorem leaveLoop (h : g.AgreesClear g') (iterator : ObjectId) (last : Value) (c : Completion) :
    Iterator.leaveLoop g iterator last c = Iterator.leaveLoop g' iterator last c := by
  rw [Iterator.leaveLoop, Iterator.leaveLoop, h.close]

section Loops

variable {body body' : Value → Run H Completion}

theorem loop (h : g.AgreesClear g') (hbody : ∀ v, Run.AgreeClear (body v) (body' v)) (rounds : Nat)
    (iterator : ObjectId) (last : Value) :
    Run.AgreeClear (Iterator.loop g body rounds iterator last) (Iterator.loop g' body' rounds iterator last) := by
  induction rounds generalizing last with
  | zero => exact .refl _
  | succ rounds ih =>
    refine h.round iterator (fun v => (hbody v).bind fun {_ c m'} _ => ?_) rfl rfl
    -- what the body has left pending is its outcome, and is pending no longer
    rw [Run.bind_eq_of_eq_some (Run.bodyOutcome_apply c m'), Run.bind_eq_of_eq_some (Run.bodyOutcome_apply c m')]
    refine (congrFun (Iterator.loop_afterBody rounds iterator last v (m'.effective c)) m'.settled).trans ?_
    refine Eq.trans ?_ (congrFun (Iterator.loop_afterBody rounds iterator last v (m'.effective c)) m'.settled).symm
    split
    · exact ih _ m'.settled rfl
    · rw [h.leaveLoop]

theorem forOf (h : g.AgreesClear g') (hbody : ∀ v, Run.AgreeClear (body v) (body' v)) (iterable : Value) :
    Run.AgreeClear (Iterator.forOf g iterable body) (Iterator.forOf g' iterable body') := by
  refine (h.of iterable).signalled (Iterator.signals_of g iterable) rfl fun iterator => ?_
  rw [← h.rounds]
  exact h.loop hbody _ iterator _

end Loops

theorem entryOf (h : g.AgreesClear g') (v : Value) :
    Run.AgreeClear (Iterator.entryOf g v) (Iterator.entryOf g' v) := by
  cases v with
  | object id => exact (h.getFrom _ _).checked fun key => (h.getFrom _ _).checked fun _ => .refl _
  | undefined | null | boolean | number | string | symbol => exact .refl _

theorem closeFailed (h : g.AgreesClear g') (iterator : ObjectId) :
    Iterator.closeFailed g iterator = Iterator.closeFailed g' iterator := by
  unfold Iterator.closeFailed
  rw [funext (h.close (some iterator))]

theorem fillMap (h : g.AgreesClear g') (rounds : Nat) (iterator map : ObjectId) :
    Run.AgreeClear (Iterator.fillMap g rounds iterator map) (Iterator.fillMap g' rounds iterator map) := by
  induction rounds with
  | zero => exact .refl _
  | succ rounds ih =>
    refine h.round iterator (fun v => ?_) rfl rfl
    refine (h.entryOf v).signalled (Iterator.signals_entryOf g v) ?_ fun entry => .action (fun _ => rfl) fun _ => ih
    rw [h.closeFailed]

theorem toMap (h : g.AgreesClear g') (iterable : Value) :
    Run.AgreeClear (Iterator.toMap g iterable) (Iterator.toMap g' iterable) := by
  refine .action (fun _ => rfl) fun prototype => .action (fun _ => rfl) fun map => ?_
  split
  · exact .refl _
  refine (h.of iterable).signalled (Iterator.signals_of g iterable) rfl fun iterator => ?_
  rw [← h.rounds]
  exact h.fillMap _ iterator map

theorem fillSet (h : g.AgreesClear g') (rounds : Nat) (iterator set : ObjectId) :
    Run.AgreeClear (Iterator.fillSet g rounds iterator set) (Iterator.fillSet g' rounds iterator set) := by
  induction rounds with
  | zero => exact .refl _
  | succ rounds ih => exact h.round iterator (fun v => .action (fun _ => rfl) fun _ => ih) rfl rfl

theorem toSet (h : g.AgreesClear g') (iterable : Value) :
    Run.AgreeClear (Iterator.toSet g iterable) (Iterator.toSet g' iterable) := by
  refine .action (fun _ => rfl) fun prototype => .action (fun _ => rfl) fun set => ?_
  split
  · exact .refl _
  refine (h.of iterable).signalled (Iterator.signals_of g iterable) rfl fun iterator => ?_
  rw [← h.rounds]
  exact h.fillSet _ iterator set

/-- Every command: it is an action, which runs no guest code, or one of the operations above. -/
theorem perform (h : g.AgreesClear g') (c : Command) : Run.AgreeClear (c.perform g) (c.perform g') := by
  cases haction : c.action? with
  | some x =>
    rw [c.perform_of_action g haction, c.perform_of_action g' haction]
    exact .refl _
  | none =>
    cases c with
    -- access and calls
    | get id key receiver => exact h.get id key receiver
    | getFrom object key => exact h.getFrom object key
    | getV v key => exact h.getV v key
    | getMethod v key => exact h.getMethod v key
    | call callable receiver args => exact h.callValue callable receiver args
    | invoke v key args => exact h.invoke v key args
    -- iteration
    | iterator v method =>
      cases method with
      | none => exact h.of v
      | some method => exact h.ofMethod v method
    | next iterator argument => exact h.next iterator argument
    | isDone result => exact h.isDone result
    | value result => exact h.value result
    | step iterator => exact h.step iterator
    | close iterator c => exact fun m _ => congrFun (h.close iterator c) m
    | isIterable v => exact h.isIterable v
    | toList v method => exact h.toList v method
    -- collections
    | toMap v => exact h.toMap v
    | toSet v => exact h.toSet v
    | _ => cases haction

end Guest.AgreesClear

/-! ## Guest code that answers only with no exception pending -/

/-- The run, without an answer where an exception is pending. -/
def Run.guarded (x : Run H α) : Run H α := fun m => if m.pending = none then x m else none

theorem Run.agreeClear_guarded (x : Run H α) : Run.AgreeClear x x.guarded := fun _ hm => (if_pos hm).symm

theorem Run.guarded_eq_some {x : Run H α} {m : Machine H} {r : α × Machine H} (h : x.guarded m = some r) :
    m.pending = none ∧ x m = some r := by
  unfold Run.guarded at h
  split at h
  · next hm => exact ⟨hm, h⟩
  · cases h

/-- The guest code, without an answer where an exception is pending. -/
def Guest.guarded (g : Guest H) : Guest H where
  call := fun f v args => (g.call f v args).guarded
  rounds := g.rounds

theorem Guest.agreesClear_guarded (g : Guest H) : g.AgreesClear g.guarded where
  call f v args := Run.agreeClear_guarded (g.call f v args)
  rounds := rfl

/-- All runs of guest code in the journal found no exception pending. -/
def Journal.EnteredClear (j : Journal) : Prop := ∀ ev ∈ j, ∀ r, ev.before? = some r → r.context.pending = none

/-- One machine on both sides, with a journal like that. -/
def EnteringClear (n n' : Machine (H × Journal)) : Prop := n = n' ∧ n'.journal.EnteredClear

namespace EnteringClear

/-- A run that notes one event and starts with no exception pending. -/
theorem sim_recorded {event : Realm → α → Realm → Event} (hevent : ∀ r a r', (event r a r').before? = some r)
    (x : Run H α) : Run.Sim EnteringClear (Run.recorded event x).guarded (Run.recorded event x).guarded := by
  rintro n _ ⟨rfl, hj⟩
  cases hc : (Run.recorded event x).guarded n with
  | none => exact .none
  | some p =>
    obtain ⟨hn, hx⟩ := Run.guarded_eq_some hc
    obtain ⟨m', -, hn'⟩ := Run.recorded_eq_some hx
    refine .some ⟨rfl, rfl, ?_⟩
    intro ev hev r hr
    rw [hn'] at hev
    rcases List.mem_append.mp hev with hold | hnew
    · exact hj ev hold r hr
    · obtain rfl := List.mem_singleton.mp hnew
      rw [hevent] at hr
      obtain rfl := Option.some.inj hr
      exact hn

theorem action (x : Action α) : Run.Sim (EnteringClear (H := H)) (liftM x) (liftM x) := by
  rintro n _ ⟨rfl, hj⟩
  exact .some ⟨rfl, rfl, hj⟩

theorem mirror (g : Guest H) : Mirror EnteringClear g.recorded.guarded g.recorded.guarded where
  realm := by
    rintro n _ ⟨rfl, -⟩
    rfl
  quiet := by
    rintro n _ r ⟨rfl, hj⟩ -
    exact ⟨rfl, hj⟩
  call f v args := by
    have hevent : ∀ r a r', (Event.called ⟨f, v, args, r, a, r'⟩).before? = some r := fun _ _ _ => rfl
    exact sim_recorded hevent (g.call f v args)
  rounds := rfl

end EnteringClear

/-- A recorded run that guarding would not change has entered guest code with no exception pending. -/
theorem enteredClear_of_guarded {x : Run H α} {y z : Run (H × Journal) α} (hrecords : Run.Sim Records x y)
    (hclear : Run.Sim EnteringClear z z) {m m' : Machine H} {r : α} (hyz : y (m.recording []) = z (m.recording []))
    (h : x m = some (r, m')) : ∃ j, y (m.recording []) = some (r, m'.recording j) ∧ j.EnteredClear := by
  obtain ⟨j, hj⟩ := hrecords.exists_journal h []
  have hz := hyz.symm.trans hj
  have hnil : Journal.EnteredClear [] := fun _ hev => absurd hev List.not_mem_nil
  have hstart : EnteringClear (m.recording []) (m.recording []) := ⟨rfl, hnil⟩
  obtain ⟨n', hn', -, hentered⟩ := hclear.exists_right hstart hz
  obtain ⟨-, rfl⟩ := Prod.mk.inj (Option.some.inj (hz.symm.trans hn'))
  exact ⟨j, hj, hentered⟩

/-! ## Operations -/

/-- An operation that enters guest code with no exception pending, if none is pending at its start. What guest code
would do with an exception pending makes no difference to it, and a journal shows no entry of that kind. -/
structure EntersClear (op : {K : Type} → Guest K → Run K α) : Prop where
  same : ∀ {K : Type} {g g' : Guest K}, g.AgreesClear g' → Run.AgreeClear (op g) (op g')
  entered : ∀ {K : Type} {g : Guest K} {m m' : Machine K} {r : α}, m.pending = none → op g m = some (r, m') →
    ∃ j, op g.recorded (m.recording []) = some (r, m'.recording j) ∧ j.EnteredClear

theorem entersClear_command (c : Command) : EntersClear fun g => c.perform g where
  same h := h.perform c
  entered {K g m m' r} hm h := by
    have hrecords : Run.Sim Records (c.perform g) (c.perform g.recorded) := by
      refine (mirror_recorded g).command Records.sim_raise c fun x _ n n' hn => ?_
      obtain ⟨j, rfl⟩ := hn.exists_eq_recording
      exact .some ⟨rfl, rfl⟩
    have hclear := (EnteringClear.mirror g).command (fun v => EnteringClear.action (Realm.raise v)) c fun x _ =>
      EnteringClear.action x
    exact enteredClear_of_guarded hrecords hclear (g.recorded.agreesClear_guarded.perform c _ hm) h

/-- Guest code is entered with no exception pending: by every command that starts with none, by closing an iterator in
any case, since it takes what is pending at its start, and by a loop, which runs its body in the same way. -/
structure ClearEntries : Prop where
  command : ∀ c : Command, EntersClear fun g => c.perform g
  closeSame : ∀ {H : Type} {g g' : Guest H}, g.AgreesClear g' → ∀ iterator c,
    Iterator.close g iterator c = Iterator.close g' iterator c
  closeEntered : ∀ {H : Type} {g : Guest H} {iterator : Handle} {c r : Completion} {m m' : Machine H},
    Iterator.close g iterator c m = some (r, m') →
      ∃ j, Iterator.close g.recorded iterator c (m.recording []) = some (r, m'.recording j) ∧ j.EnteredClear
  forOfSame : ∀ {H : Type} {g g' : Guest H} {body body' : Value → Run H Completion}, g.AgreesClear g' →
    (∀ v, Run.AgreeClear (body v) (body' v)) → ∀ iterable,
    Run.AgreeClear (Iterator.forOf g iterable body) (Iterator.forOf g' iterable body')
  forOfEntered : ∀ {H : Type} {g : Guest H} {body : Value → Run H Completion} {iterable : Value} {r : Completion}
    {m m' : Machine H}, m.pending = none → Iterator.forOf g iterable body m = some (r, m') →
      ∃ j, Iterator.forOf g.recorded iterable (recordedBody body) (m.recording []) = some (r, m'.recording j) ∧
        j.EnteredClear

theorem clearEntries : ClearEntries where
  command := entersClear_command
  closeSame h := h.close
  closeEntered {H g iterator c r m m'} h := by
    have hguarded := congrFun (g.recorded.agreesClear_guarded.close iterator c) (m.recording [])
    exact enteredClear_of_guarded ((mirror_recorded g).close iterator c) ((EnteringClear.mirror g).close iterator c)
      hguarded h
  forOfSame h hbody := h.forOf hbody
  forOfEntered {H g body iterable r m m'} hm h := by
    have hrecords : Run.Sim Records (Iterator.forOf g iterable body)
        (Iterator.forOf g.recorded iterable (recordedBody body)) :=
      (mirror_recorded g).forOf (fun v => sim_recorded _ (body v)) iterable
    have hevent : ∀ v r c r', (Event.ranBody v r c r').before? = some r := fun _ _ _ _ => rfl
    have hclear : Run.Sim EnteringClear
        (Iterator.forOf g.recorded.guarded iterable fun v => (recordedBody body v).guarded)
        (Iterator.forOf g.recorded.guarded iterable fun v => (recordedBody body v).guarded) :=
      (EnteringClear.mirror g).forOf (fun v => EnteringClear.sim_recorded (hevent v) (body v)) iterable
    have hguarded := g.recorded.agreesClear_guarded.forOf (fun v => Run.agreeClear_guarded (recordedBody body v))
      iterable (m.recording []) hm
    exact enteredClear_of_guarded hrecords hclear hguarded h

/-! ## A call, and a loop of one round -/

/-- The machine of `closableMachine` with an exception pending. -/
def raisedMachine : Machine Unit := closableMachine.withRealm (Realm.raise (.string "first") closableMachine.realm).2

/-- Closing calls `return` with nothing pending although `first` was pending before, which it throws in the end; guest
code that answers in no other case does just as well. A list and a loop over one value begin with nothing pending, and
so does everything that is run in them: three calls, and for the loop a run of its body. -/
theorem clearEntries_raisedMachine :
    Iterator.close idleGuest (some ⟨0⟩) (.returns .null) =
      Iterator.close idleGuest.guarded (some ⟨0⟩) (.returns .null) ∧
    (∃ (m' : Machine Unit) (j : Journal),
      Iterator.close idleGuest.recorded (some ⟨0⟩) (.returns .null) (raisedMachine.recording []) =
        some (.throws (.string "first"), m'.recording j) ∧ j.length = 1 ∧ j.EnteredClear) ∧
    (∃ (m' : Machine Nat) (j : Journal),
      Iterator.toList countingGuest.recorded (.object ⟨0⟩) none (iterableMachine.recording []) =
        some ([.string "a"], m'.recording j) ∧ j.length = 3 ∧ j.EnteredClear) ∧
    ∃ (m' : Machine Nat) (j : Journal),
      Iterator.forOf countingGuest.recorded (.object ⟨0⟩) (recordedBody fun v => pure (.normal v))
        (iterableMachine.recording []) = some (.normal (.string "a"), m'.recording j) ∧
      j.length = 4 ∧ j.EnteredClear := by
  refine ⟨clearEntries.closeSame idleGuest.agreesClear_guarded _ _, ?_, ?_, ?_⟩
  · obtain ⟨c, m', j, -, hj, hcheck, hclear⟩ := exists_recorded
      (Iterator.close idleGuest (some ⟨0⟩) (.returns .null) raisedMachine)
      (fun p => p.1 == .throws (.string "first") && p.2.journal.length == 1)
      (fun _ _ => clearEntries.closeEntered) (by decide +kernel) (by decide +kernel)
    rw [Bool.and_eq_true, beq_iff_eq, beq_iff_eq] at hcheck
    obtain ⟨rfl, hlength⟩ := hcheck
    exact ⟨m', j, hj, hlength, hclear⟩
  · obtain ⟨vs, m', j, -, hj, hcheck, hclear⟩ := exists_recorded
      (Iterator.toList countingGuest (.object ⟨0⟩) none iterableMachine)
      (fun p => p.1 == [.string "a"] && p.2.journal.length == 3)
      (fun _ _ => (clearEntries.command (.toList (.object ⟨0⟩) none)).entered rfl) (by decide +kernel)
      (by decide +kernel)
    rw [Bool.and_eq_true, beq_iff_eq, beq_iff_eq] at hcheck
    obtain ⟨rfl, hlength⟩ := hcheck
    exact ⟨m', j, hj, hlength, hclear⟩
  · obtain ⟨c, m', j, -, hj, hcheck, hclear⟩ := exists_recorded
      (Iterator.forOf countingGuest (.object ⟨0⟩) (fun v => pure (.normal v)) iterableMachine)
      (fun p => p.1 == .normal (.string "a") && p.2.journal.length == 4)
      (fun _ _ => clearEntries.forOfEntered rfl) (by decide +kernel) (by decide +kernel)
    rw [Bool.and_eq_true, beq_iff_eq, beq_iff_eq] at hcheck
    obtain ⟨rfl, hlength⟩ := hcheck
    exact ⟨m', j, hj, hlength, hclear⟩

end IterationEngine
