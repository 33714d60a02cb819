import IterationEngine.Proofs.History
import IterationEngine.Proofs.ListStep

/-!
# List iterators over whole runs

A list iterator hands out its list in order, without loss and without repetition, to the one function that it is
bound to, whatever else happens.

1. `permitted_eq_ok`, `callFunction_listNext`: when a step is permitted, and what a call of step code does.
2. `Serves`: what one list iterator does over a stretch of a journal; `Accounts`: what all of them do.
3. `upheld_ledgered`: every program keeps `Accounts`, by cases on its commands and calls.
4. `listIterator_history`: the result, for all histories.
-/

namespace IterationEngine

variable {H : Type}

/-! ## Calls and steps in a journal -/

namespace CallRecord

/-- The receiver that the call saw. -/
def effectiveReceiver (c : CallRecord) : Value := c.before.context.effectiveReceiver c.receiver

/-- A call of `f` that passed the check of the depth and saw `it` as its receiver. -/
def Steps (f it : ObjectId) (c : CallRecord) : Prop :=
  c.function = f ∧ c.before.context.canCall = true ∧ c.effectiveReceiver = .object it

instance (f it : ObjectId) (c : CallRecord) : Decidable (c.Steps f it) :=
  inferInstanceAs (Decidable (_ ∧ _ ∧ _))

/-- The call answered a fresh result object: with that value and not done, or with no value and done. -/
def Yields (c : CallRecord) (v : Option Value) : Prop :=
  ∃ r, c.result = .object r ∧ c.before.heap.get? r = none ∧
    c.after.heap.ownProperty? "value" r = some (.data (v.getD .undefined) .all) ∧
    c.after.heap.ownProperty? "done" r = some (.data (.boolean v.isNone) .all)

/-- The call ran the step of list iterators, on a receiver that is no list iterator bound to its function. -/
def Foreign (c : CallRecord) : Prop :=
  c.before.context.canCall = true ∧ c.before.heap.code? c.function = some (.builtin .listNext) ∧
    ∀ it list index, c.effectiveReceiver = .object it →
      c.before.heap.listCursor? it ≠ some { list := some list, index, next := some c.function }

/-- The call raised a type error and did nothing else. -/
def Refused (c : CallRecord) : Prop :=
  c.result = .undefined ∧
    ∃ refusal : ListIterator.Refusal, c.after = c.before.withError .typeError refusal.message

end CallRecord

namespace Event

/-- The heap that the event left. -/
def heap : Event → Heap
  | called c => c.after.heap
  | ranBody _ _ _ after => after.heap
  | performed _ _ h => h

/-- A call of `f` that takes a step of `it`. -/
def isStep (f it : ObjectId) : Event → Bool
  | called c => decide (c.Steps f it)
  | _ => false

/-- The embedder binds a function to `it`. -/
def rebinds (it : ObjectId) : Event → Bool
  | performed (.bindNext id _) _ _ => decide (id = it)
  | _ => false

end Event

/-- The number of steps that `f` has taken of `it`. -/
def Journal.steps (f it : ObjectId) (j : Journal) : Nat := j.countP (Event.isStep f it)

theorem Journal.steps_concat (f it : ObjectId) (j : Journal) (ev : Event) :
    (j ++ [ev]).steps f it = j.steps f it + (ev.isStep f it).toNat := by
  unfold Journal.steps
  rw [List.countP_append, List.countP_singleton]
  cases ev.isStep f it <;> rfl

/-- Where an event stands in a journal with one more event. -/
theorem Journal.eq_of_concat {j p q : Journal} {ev e : Event} (h : j ++ [ev] = p ++ e :: q) :
    (j = p ∧ ev = e ∧ q = []) ∨ ∃ q', q = q' ++ [ev] ∧ j = p ++ e :: q' := by
  rcases List.eq_nil_or_concat q with rfl | ⟨q', x, rfl⟩
  · obtain ⟨rfl, hev⟩ := List.append_inj' h rfl
    exact .inl ⟨rfl, (List.cons.inj hev).1, rfl⟩
  · rw [List.concat_eq_append, ← List.cons_append, ← List.append_assoc] at h
    obtain ⟨rfl, hev⟩ := List.append_inj' h rfl
    obtain rfl := (List.cons.inj hev).1
    exact .inr ⟨q', List.concat_eq_append, rfl⟩

/-! ## One list iterator -/

/-- The list iterator `it` over `xs`, bound to `f` and made in the heap `h₀`, over the events `post` that have
followed and up to the heap `h`. Its cursor stands after as many values as `f` has taken steps of it. -/
structure Serves (it f : ObjectId) (xs : List Value) (h₀ : Heap) (post : Journal) (h : Heap) : Prop where
  created : h₀.listCursor? it = some { list := some xs, next := some f }
  code : h.code? f = some (.builtin .listNext)
  now : h.listCursor? it =
    some { list := some xs, index := min (post.steps f it) xs.length, next := some f }
  /-- After every single event. -/
  always : ∀ {p ev q}, post = p ++ ev :: q → ev.heap.listCursor? it =
    some { list := some xs, index := min (Journal.steps f it (p ++ [ev])) xs.length, next := some f }
  /-- The `k`-th step yields the `k`-th value. -/
  results : ∀ {p c q}, post = p ++ .called c :: q → c.Steps f it → c.Yields xs[Journal.steps f it p]?

namespace Serves

variable {it f : ObjectId} {xs : List Value} {h₀ h h' : Heap} {post : Journal} {ev : Event}

theorem keeps (s : Serves it f xs h₀ post h) (hk : h.KeepsKinds h') : Serves it f xs h₀ post h' where
  created := s.created
  code := hk.code? s.code
  now := hk.listCursor? s.now
  always := s.always
  results := s.results

theorem event (s : Serves it f xs h₀ post h) (hcode : ev.heap.code? f = some (.builtin .listNext))
    (hnow : ev.heap.listCursor? it =
      some { list := some xs, index := min (Journal.steps f it (post ++ [ev])) xs.length, next := some f })
    (hresult : ∀ c, ev = .called c → c.Steps f it → c.Yields xs[post.steps f it]?) :
    Serves it f xs h₀ (post ++ [ev]) ev.heap where
  created := s.created
  code := hcode
  now := hnow
  always := by
    intro p e q hpost
    rcases Journal.eq_of_concat hpost with ⟨rfl, rfl, -⟩ | ⟨q', -, hq⟩
    · exact hnow
    · exact s.always hq
  results := by
    intro p c q hpost hc
    rcases Journal.eq_of_concat hpost with ⟨rfl, rfl, -⟩ | ⟨q', -, hq⟩
    · exact hresult c rfl hc
    · exact s.results hq hc

/-- An event that is no step of `it` and keeps kinds. -/
theorem pass (s : Serves it f xs h₀ post h) (hstep : ev.isStep f it = false) (hk : h.KeepsKinds ev.heap) :
    Serves it f xs h₀ (post ++ [ev]) ev.heap := by
  refine s.event (hk.code? s.code) ?_ ?_
  · rw [Journal.steps_concat, hstep]
    exact hk.listCursor? s.now
  · rintro c rfl hc
    rw [Event.isStep, decide_eq_false_iff_not] at hstep
    exact absurd hc hstep

end Serves

/-! ## All list iterators -/

/-- What has happened to all list iterators that were made by `ListIterator.create`. -/
structure Accounts (j : Journal) (h : Heap) : Prop where
  serves : ∀ {pre xs it h₀ post}, j = pre ++ .performed (.createListIterator xs) it h₀ :: post →
    (∀ ev ∈ post, ev.rebinds it = false) → ∃ f, Serves it f xs h₀ post h
  refuses : ∀ c, .called c ∈ j → c.Foreign → c.Refused

namespace Accounts

variable {j : Journal} {h h' : Heap} {ev : Event}

theorem nil (h : Heap) : Accounts [] h where
  serves := by
    intro pre xs it h₀ post hj
    exact absurd hj.symm (List.append_ne_nil_of_right_ne_nil _ (List.cons_ne_nil _ _))
  refuses := fun _ hc => absurd hc List.not_mem_nil

theorem keeps (a : Accounts j h) (hk : h.KeepsKinds h') : Accounts j h' where
  serves := by
    intro pre xs it h₀ post hj hpost
    obtain ⟨f, s⟩ := a.serves hj hpost
    exact ⟨f, s.keeps hk⟩
  refuses := a.refuses

theorem event (a : Accounts j h)
    (hserves : ∀ {it f xs h₀ post}, Serves it f xs h₀ post h → ev.rebinds it = false →
      Serves it f xs h₀ (post ++ [ev]) ev.heap)
    (hcreate : ∀ xs it h₀, ev = .performed (.createListIterator xs) it h₀ → ∃ f, Serves it f xs h₀ [] ev.heap)
    (hrefuse : ∀ c, ev = .called c → c.Foreign → c.Refused) : Accounts (j ++ [ev]) ev.heap where
  serves := by
    intro pre xs it h₀ post hj hpost
    rcases Journal.eq_of_concat hj with ⟨-, rfl, rfl⟩ | ⟨post', rfl, hj'⟩
    · exact hcreate xs it h₀ rfl
    · obtain ⟨f, s⟩ := a.serves hj' fun e he => hpost e (List.mem_append_left _ he)
      exact ⟨f, hserves s (hpost ev (List.mem_append_right _ List.mem_cons_self))⟩
  refuses := by
    intro c hc
    rcases List.mem_append.mp hc with hc | hc
    · exact a.refuses c hc
    · exact hrefuse c (List.mem_singleton.mp hc).symm

end Accounts

/-! ## Calls -/

section Calls

variable {r : Realm} {f : ObjectId} {v : Value} {j : Journal}

/-- The event of a permitted step. -/
def stepEvent (r : Realm) (f : ObjectId) (v : Value) (args : List Value)
    (permission : Except ListIterator.Refusal (ObjectId × List Value × Nat)) : Event :=
  .ofCall f v args r (ListIterator.stepped r permission).1 (ListIterator.stepped r permission).2

/-- A permitted step, for the list iterator that it is a step of. -/
theorem Serves.step {it f' : ObjectId} {xs values : List Value} {index : Nat} {h₀ : Heap} {post : Journal}
    (s : Serves it f' xs h₀ post r.heap) (hcan : r.context.canCall = true)
    (hrec : r.context.effectiveReceiver v = .object it)
    (hcursor : r.heap.listCursor? it = some { list := some values, index, next := some f }) (args : List Value) :
    Serves it f' xs h₀ (post ++ [stepEvent r f v args (.ok (it, values, index))])
      (stepEvent r f v args (.ok (it, values, index))).heap := by
  -- the cursor tells that the two functions, the two lists and the two positions are the same
  have hsame := s.now.symm.trans hcursor
  rw [Option.some.injEq, ListCursor.mk.injEq, Option.some.injEq, Option.some.injEq] at hsame
  obtain ⟨rfl, rfl, rfl⟩ := hsame
  have hstep : (stepEvent r f' v args (.ok (it, xs, min (post.steps f' it) xs.length))).isStep f' it = true :=
    decide_eq_true ⟨rfl, hcan, hrec⟩
  have halloc := Heap.KeepsKinds.alloc
    (ListIterator.moved r.heap it xs (min (post.steps f' it) xs.length))
    (.ofResult (r.context.intrinsic .objectPrototype)
      (xs[min (post.steps f' it) xs.length]?.getD .undefined) xs[min (post.steps f' it) xs.length]?.isNone)
  refine s.event ?_ ?_ ?_
  · exact halloc.code? (ListIterator.keepsCode_moved _ _ _ _ _ _ s.code)
  · rw [Journal.steps_concat, hstep]
    exact halloc.listCursor? (ListIterator.listCursor?_moved s.now)
  · intro c hc _
    obtain rfl := Event.called.inj hc
    rw [← ListIterator.getElem?_min]
    exact ⟨_, rfl, ListIterator.get?_result _ _ _ _ _, ListIterator.ownProperty?_value _ _ _ _,
      ListIterator.ownProperty?_done _ _ _ _⟩

/-- A permitted step, for any other list iterator. -/
theorem Serves.otherStep {it id f' : ObjectId} {xs values : List Value} {index : Nat} {h₀ : Heap} {post : Journal}
    (s : Serves id f' xs h₀ post r.heap) (hrec : r.context.effectiveReceiver v = .object it) (hne : it ≠ id)
    (args : List Value) :
    Serves id f' xs h₀ (post ++ [stepEvent r f v args (.ok (it, values, index))])
      (stepEvent r f v args (.ok (it, values, index))).heap := by
  have hstep : (stepEvent r f v args (.ok (it, values, index))).isStep f' id = false := by
    refine decide_eq_false ?_
    rintro ⟨-, -, hreceiver⟩
    have hreceiver : r.context.effectiveReceiver v = .object id := hreceiver
    rw [hrec] at hreceiver
    exact hne (Value.object.inj hreceiver)
  have halloc := Heap.KeepsKinds.alloc (ListIterator.moved r.heap it values index)
    (.ofResult (r.context.intrinsic .objectPrototype) (values[index]?.getD .undefined) values[index]?.isNone)
  refine s.event ?_ ?_ ?_
  · exact halloc.code? (ListIterator.keepsCode_moved _ _ _ _ _ _ s.code)
  · rw [Journal.steps_concat, hstep]
    refine halloc.listCursor? ?_
    rw [ListIterator.listCursor?_moved_of_ne hne]
    exact s.now
  · intro c hc hsteps
    obtain rfl := Event.called.inj hc
    exact absurd hsteps (of_decide_eq_false hstep)

/-- A call of step code. -/
theorem Accounts.listNext (acc : Accounts j r.heap) (hcan : r.context.canCall = true) (args : List Value)
    {ev : Event} (hev : ev = stepEvent r f v args (ListIterator.permitted r.heap (r.calleeFrame f v))) :
    Accounts (j ++ [ev]) ev.heap ∧ r.heap.KeepsCode ev.heap := by
  cases hp : ListIterator.permitted r.heap (r.calleeFrame f v) with
  | error refusal =>
    rw [hp] at hev
    have hkinds : r.heap.KeepsKinds ev.heap := by
      rw [hev]
      exact .alloc _ _
    refine ⟨acc.event (fun {it f' xs h₀ post} s _ => s.pass ?_ hkinds) ?_ ?_, .ofKinds hkinds⟩
    · -- a step of `it` would have been permitted
      rw [hev]
      refine decide_eq_false ?_
      rintro ⟨hf, -, hrec⟩
      obtain rfl : f = f' := hf
      have hrec : r.context.effectiveReceiver v = .object it := hrec
      rw [Realm.calleeFrame, hrec, ListIterator.permitted_of_listCursor? s.now] at hp
      cases hp
    · intro xs it h₀ hcreate
      rw [hev] at hcreate
      cases hcreate
    · intro c hc _
      obtain rfl := Event.called.inj (hev.symm.trans hc)
      exact ⟨rfl, refusal, rfl⟩
  | ok permission =>
    obtain ⟨it, values, index⟩ := permission
    obtain ⟨hrec, hcursor⟩ := ListIterator.permitted_eq_ok hp
    rw [hp] at hev
    subst hev
    refine ⟨acc.event (fun {id f' xs h₀ post} s _ => ?_) ?_ ?_, ?_⟩
    · by_cases hid : it = id
      · subst hid
        exact s.step hcan hrec hcursor args
      · exact s.otherStep hrec hid args
    · intro xs it h₀ hcreate
      cases hcreate
    · rintro c hc ⟨-, -, hforeign⟩
      obtain rfl := Event.called.inj hc
      exact absurd hcursor (hforeign it values index hrec)
    · exact (ListIterator.keepsCode_moved _ _ _ _).trans (.ofKinds (.alloc _ _))

/-- A call of anything else, or at the limit of the depth. -/
theorem Accounts.otherCall {c : CallRecord} (acc : Accounts j c.after.heap)
    (hcode : c.before.context.canCall = true → c.after.heap.code? c.function ≠ some (.builtin .listNext))
    (hforeign : ¬ c.Foreign) : Accounts (j ++ [.called c]) c.after.heap := by
  refine acc.event (fun {it f' xs h₀ post} s _ => s.pass ?_ (.refl _)) (fun _ _ _ h => nomatch h) ?_
  · refine decide_eq_false ?_
    rintro ⟨rfl, hcan, -⟩
    exact hcode hcan s.code
  · rintro c' hc' hf
    obtain rfl := Event.called.inj hc'
    exact absurd hf hforeign

end Calls

/-! ## Programs -/

section Programs

open Program

variable {S : Type}

/-- `n` is `m` with a journal beside it that accounts for all list iterators. Since a heap and a journal in the
past, no function object has lost its code and nothing has been taken from the journal. -/
structure Ledgered (past : Heap × Journal) (m : Machine (Embedder S)) (n : Machine (Embedder S × Journal)) :
    Prop where
  records : Records m n
  code : past.1.KeepsCode n.realm.heap
  journal : past.2 <+: n.journal
  accounts : Accounts n.journal n.realm.heap

namespace Ledgered

variable {past : Heap × Journal}

theorem keeps {m : Machine (Embedder S)} {n : Machine (Embedder S × Journal)} (hmn : Ledgered past m n) {r : Realm}
    (hk : m.realm.heap.KeepsKinds r.heap) : Ledgered past (m.withRealm r) (n.withRealm r) := by
  obtain ⟨j, rfl⟩ := hmn.records.exists_eq_recording
  exact ⟨rfl, hmn.code.trans (.ofKinds hk), hmn.journal, hmn.accounts.keeps hk⟩

theorem action {α : Type} {x : Action α} (hx : Realm.KeepsKinds x) :
    Run.Sim (Ledgered (S := S) past) (liftM x) (liftM x) := by
  intro m n hmn
  obtain ⟨j, rfl⟩ := hmn.records.exists_eq_recording
  exact .some ⟨rfl, hmn.keeps (hx m.realm)⟩

theorem begin {m : Machine (Embedder S)} {j : Journal} (acc : Accounts j m.realm.heap) :
    Ledgered (m.realm.heap, j) m (m.recording j) :=
  ⟨rfl, fun _ _ hc => hc, List.prefix_refl j, acc⟩

/-- A relation with the heap of the machine itself. -/
theorem here {m : Machine (Embedder S)} {n : Machine (Embedder S × Journal)} (hmn : Ledgered past m n) :
    Ledgered (n.realm.heap, past.2) m n :=
  ⟨hmn.records, fun _ _ hc => hc, hmn.journal, hmn.accounts⟩

theorem realm {m : Machine (Embedder S)} {n : Machine (Embedder S × Journal)} (hmn : Ledgered past m n) :
    n.realm = m.realm :=
  congrArg Machine.realm hmn.records

/-! ### Commands -/

theorem create {g : Guest (Embedder S)} {xs : List Value} {it : ObjectId} {m m' : Machine (Embedder S)}
    (h : (Command.createListIterator xs).run g m = some (it, m')) :
    ∃ f, Serves it f xs m'.realm.heap [] m'.realm.heap := by
  obtain ⟨_, m₁, -, h⟩ := Run.bind_eq_some.mp h
  obtain ⟨rfl, rfl⟩ := Run.lift_eq_some h
  obtain ⟨f, hcursor, hcode, -⟩ := ListIterator.made_create xs m₁.realm
  refine ⟨f, hcursor, hcode, ?_, ?_, ?_⟩
  · rw [Journal.steps, List.countP_nil, Nat.zero_min]
    exact hcursor
  · intro p ev q hj
    exact absurd hj.symm (List.append_ne_nil_of_right_ne_nil _ (List.cons_ne_nil _ _))
  · intro p c q hj
    exact absurd hj.symm (List.append_ne_nil_of_right_ne_nil _ (List.cons_ne_nil _ _))

theorem command {g : Guest (Embedder S)} {g' : Guest (Embedder S × Journal)} (M : Mirror (Ledgered past) g g')
    {c : Command} (hc : ∀ id f, c ≠ .bindNext id f) :
    Run.Sim (Ledgered past) (c.run g) ((c.run g').noted (.ofCommand c)) := by
  have hrun : Run.Sim (Ledgered past) (c.run g) (c.run g') :=
    (Run.Sim.requireLive realm _).bind fun _ => M.perform action c hc
  refine hrun.noted fun {m n a m' n'} _ hm _ hmn => ?_
  obtain ⟨j, rfl⟩ := hmn.records.exists_eq_recording
  refine ⟨rfl, hmn.code, hmn.journal.trans (List.prefix_append _ _), hmn.accounts.event ?_ ?_ ?_⟩
  · exact fun s _ => s.pass rfl (.refl _)
  · intro xs it h' heq
    cases heq
    exact create hm
  · exact fun _ h => nomatch h

/-- Binding a list iterator is its own event, so the others go on as before. -/
theorem bindNext {g : Guest (Embedder S)} {g' : Guest (Embedder S × Journal)} (id : ObjectId) (f : Handle) :
    Run.Sim (Ledgered past) ((Command.bindNext id f).run g)
      (((Command.bindNext id f).run g').noted (.ofCommand (.bindNext id f))) := by
  intro m n hmn
  obtain ⟨j, rfl⟩ := hmn.records.exists_eq_recording
  unfold Run.noted
  show Option.Rel _ ((Run.requireLive (Command.bindNext id f).operands m).bind _)
    (((Run.requireLive (Command.bindNext id f).operands (m.recording j)).bind _).map _)
  unfold Run.requireLive
  rw [Machine.realm_recording]
  split
  · have hkeeps := ListIterator.keepsCode_bindNext id f m.realm
    refine .some ⟨rfl, rfl, hmn.code.trans hkeeps, hmn.journal.trans (List.prefix_append _ _), ?_⟩
    refine hmn.accounts.event (fun s hid => ?_) ?_ ?_
    · refine s.event (hkeeps _ _ s.code) ?_ (fun _ h => nomatch h)
      rw [Journal.steps_concat]
      exact (Heap.listCursor?_modify_of_ne (of_decide_eq_false hid) _).trans s.now
    · exact fun _ _ _ h => nomatch h
    · exact fun _ h => nomatch h
  · exact .none

/-! ### Calls -/

/-- Code that is no step of a list iterator. -/
theorem runFramed {guest : GuestCode (Embedder S)} {guest' : GuestCode (Embedder S × Journal)}
    (hguest : ∀ code args, Run.Sim (Ledgered past) (guest code args) (guest' code args)) {code : Code}
    (hcode : code ≠ .builtin .listNext) (args : List Value) (frame back : Frame) :
    Run.Sim (Ledgered past) (runFramed guest code args frame back) (runFramed guest' code args frame back) := by
  refine (action (.ofHeap fun _ => rfl)).bind fun _ => ?_
  refine Run.Sim.bind ?_ fun result => (action (.ofHeap fun _ => rfl)).bind fun _ => .pure result
  cases code with
  | absent => exact .pure _
  | guest id => exact hguest id args
  | builtin b =>
    cases b with
    | listNext => exact absurd rfl hcode
    | mapIterator kind => exact action (.bind .getContext fun _ => (Realm.KeepsKinds.ofMap _ _).bind fun _ => .pure _)
    | setIterator kind => exact action (.bind .getContext fun _ => (Realm.KeepsKinds.ofSet _ _).bind fun _ => .pure _)
    | receiver => exact action (.bind .getContext fun _ => .pure _)

/-- The function of a call is no step function afterwards if it was none before. -/
theorem code?_of_runFramed {guest : GuestCode (Embedder S × Journal)} {f : ObjectId} {args : List Value}
    {frame back : Frame} {a : Value} {m : Machine (Embedder S)} {n n' : Machine (Embedder S × Journal)}
    (hcode : n.realm.heap.code? f ≠ some (.builtin .listNext))
    (h : IterationEngine.runFramed guest ((n.realm.heap.code? f).getD .absent) args frame back n = some (a, n'))
    (hmn : Ledgered (n.realm.heap, past.2) m n') : n'.realm.heap.code? f ≠ some (.builtin .listNext) := by
  cases hc : n.realm.heap.code? f with
  | none =>
    rw [hc] at h
    -- an object without code runs nothing
    obtain rfl : _ = n' := (Prod.mk.inj (Option.some.inj h)).2
    exact hcode
  | some c =>
    rw [hmn.code f c hc, ← hc]
    exact hcode

/-- A call keeps the accounts, given that the guest code it runs does. -/
theorem call {guest : GuestCode (Embedder S)} {guest' : GuestCode (Embedder S × Journal)}
    (hguest : ∀ past code args, Run.Sim (Ledgered past) (guest code args) (guest' code args)) (f : ObjectId)
    (v : Value) (args : List Value) :
    Run.Sim (Ledgered past) (callFunction guest f v args) ((callFunction guest' f v args).noted (.ofCall f v args)) := by
  intro m n hmn
  obtain ⟨j, rfl⟩ := hmn.records.exists_eq_recording
  by_cases hcan : m.realm.context.canCall = true
  · by_cases hcode : m.realm.heap.code? f = some (.builtin .listNext)
    · unfold Run.noted
      rw [callFunction_listNext guest f v args m hcan hcode,
        callFunction_listNext guest' f v args (m.recording j) hcan hcode]
      obtain ⟨hacc, hkeeps⟩ := hmn.accounts.listNext hcan args rfl
      exact .some ⟨rfl, rfl, hmn.code.trans hkeeps, hmn.journal.trans (List.prefix_append _ _), hacc⟩
    · have hrun := callFunction_of_canCall guest f v args hcan
      have hrun' := callFunction_of_canCall guest' f v args (m := m.recording j) hcan
      have hne : (m.realm.heap.code? f).getD .absent ≠ .builtin .listNext := by
        cases hc : m.realm.heap.code? f with
        | none => exact nofun
        | some c =>
          rw [hc] at hcode
          exact fun heq => hcode (congrArg some heq)
      refine Run.rel_noted (R := Ledgered (m.realm.heap, past.2)) ?_ ?_
      · rw [hrun, hrun']
        exact runFramed (hguest _) hne args _ _ m (m.recording j) hmn.here
      · intro a m' n' _ hn hmn'
        rw [hrun'] at hn
        obtain ⟨j', rfl⟩ := hmn'.records.exists_eq_recording
        refine ⟨rfl, hmn.code.trans hmn'.code, hmn'.journal.trans (List.prefix_append _ _), ?_⟩
        refine hmn'.accounts.otherCall (fun _ => ?_) ?_
        · exact code?_of_runFramed hcode hn hmn'
        · exact fun hforeign => hcode hforeign.2.1
  · unfold Run.noted
    rw [callFunction_of_limit guest f v args hcan, callFunction_of_limit guest' f v args (m := m.recording j) hcan]
    have hkinds : m.realm.heap.KeepsKinds (m.withError .rangeError "Maximum call stack size exceeded").realm.heap :=
      .alloc _ _
    refine .some ⟨rfl, rfl, hmn.code.trans (.ofKinds hkinds), hmn.journal.trans (List.prefix_append _ _), ?_⟩
    exact (hmn.accounts.keeps hkinds).otherCall (fun h => absurd h hcan) fun hforeign => hcan hforeign.1

end Ledgered

/-- Every program keeps the accounts. -/
theorem upheld_ledgered : Upheld (Ledgered (S := S)) where
  records := fun h => h.records
  quiet := fun h hq => h.keeps (.ofExtends hq.heap)
  command := by
    intro g g' M past c
    by_cases hc : ∃ id f, c = .bindNext id f
    · obtain ⟨id, f, rfl⟩ := hc
      exact Ledgered.bindNext id f
    · exact Ledgered.command (M past) fun id f h => hc ⟨id, f, h⟩
  define := by
    intro past name arity body m n hmn
    obtain ⟨j, rfl⟩ := hmn.records.exists_eq_recording
    have hkinds := Heap.KeepsKinds.alloc m.realm.heap (.ofCode name arity (.guest ⟨m.host.code.size⟩))
    exact .some ⟨rfl, rfl, hmn.code.trans (.ofKinds hkinds), hmn.journal, hmn.accounts.keeps hkinds⟩
  update := by
    intro past change m n hmn
    obtain ⟨j, rfl⟩ := hmn.records.exists_eq_recording
    exact .some ⟨rfl, rfl, hmn.code, hmn.journal, hmn.accounts⟩
  call := fun hguest past f v args => Ledgered.call hguest f v args

/-! ## Histories -/

theorem accounts_of_history {m : Machine (Embedder S)} {j : Journal} (h : History m j) : Accounts j m.realm.heap := by
  induction h with
  | start m => exact .nil _
  | @run m m' j j' p bounds c _ hrun ih =>
    obtain ⟨_, _, hm'⟩ := (upheld_ledgered.runWithin bounds p _).exists_left (.begin ih) hrun
    exact hm'.accounts

/-- Every run goes into the history. -/
theorem History.exists_run {m m' : Machine (Embedder S)} {j : Journal} (h : History m j) {p : Program S}
    {bounds : Bounds} {c : Completion} (hrun : p.runWithin bounds m = some (c, m')) :
    ∃ j', History m' (j ++ j') := by
  obtain ⟨n, hn, hmn⟩ := (upheld_ledgered.runWithin bounds p _).exists_right (.begin (accounts_of_history h)) hrun
  obtain ⟨j', rfl⟩ := hmn.records.exists_eq_recording
  obtain ⟨new, rfl⟩ := hmn.journal
  exact ⟨new, h.run hn⟩

/-- List iterators in all histories. Whatever programs are run next, the history goes on. A list iterator that has
been made, and bound by nobody since, hands out its list in order to its own function; and step code that is called
on anything else raises an error and moves no cursor. -/
theorem listIterator_history {m : Machine (Embedder S)} {j : Journal} (h : History m j) :
    (∀ (p : Program S) bounds c m', p.runWithin bounds m = some (c, m') → ∃ j', History m' (j ++ j')) ∧
    (∀ pre xs it h₀ post, j = pre ++ .performed (.createListIterator xs) it h₀ :: post →
      (∀ ev ∈ post, ev.rebinds it = false) → ∃ f, Serves it f xs h₀ post m.realm.heap) ∧
    ∀ c, .called c ∈ j → c.Foreign → c.Refused := by
  have acc := accounts_of_history h
  refine ⟨fun p bounds c m' hrun => h.exists_run hrun, ?_, acc.refuses⟩
  intro pre xs it h₀ post hj hpost
  exact acc.serves hj hpost

end Programs

/-! ## A list of one value -/

/-- Makes a list iterator over one value and asks it for two results. -/
def askTwice : Program Unit :=
  .perform (.createListIterator [.boolean true]) fun it =>
    .perform (.next (some it) none) fun _ =>
      .perform (.next (some it) none) fun _ => .finish (.normal .undefined)

/-- The list iterator that an event has made, and its list. -/
def Event.made? : Event → Option (List Value × ObjectId)
  | performed (.createListIterator xs) it _ => some (xs, it)
  | _ => none

theorem Journal.eq_cons_of_made? {j : Journal} {xs : List Value} {it : ObjectId}
    (h : j.head?.bind Event.made? = some (xs, it)) :
    ∃ h₀ post, j = .performed (.createListIterator xs) it h₀ :: post := by
  obtain ⟨ev, hhead, hmade⟩ := Option.bind_eq_some_iff.mp h
  obtain ⟨post, rfl⟩ := List.head?_eq_some_iff.mp hhead
  unfold Event.made? at hmade
  split at hmade
  · cases hmade
    exact ⟨_, post, rfl⟩
  · cases hmade

/-- Both results are steps of the list iterator, the second one past its end. -/
theorem listIterator_history_askTwice :
    ∃ (m : Machine (Embedder Unit)) (h₀ : Heap) (post : Journal),
      History m (.performed (.createListIterator [.boolean true]) ⟨0⟩ h₀ :: post) ∧
      ∃ f, Serves ⟨0⟩ f [.boolean true] h₀ post m.realm.heap ∧ post.steps ⟨1⟩ ⟨0⟩ = 2 := by
  have hcheck : (askTwice.runWithinNoted ⟨2, 8⟩ (embeddingMachine.recording [])).any (fun p =>
      p.2.journal.head?.bind Event.made? == some ([.boolean true], ⟨0⟩) &&
      p.2.journal.tail.all (fun ev => !ev.rebinds ⟨0⟩) &&
      Journal.steps ⟨1⟩ ⟨0⟩ p.2.journal.tail == 2) = true := by decide +kernel
  obtain ⟨⟨c, n⟩, hrun, hn⟩ := (Option.any_eq_true _ _).mp hcheck
  rw [Bool.and_eq_true, Bool.and_eq_true, beq_iff_eq, beq_iff_eq] at hn
  obtain ⟨⟨hmade, hfree⟩, hsteps⟩ := hn
  have hhistory : History n.unrecorded n.journal := .run (.start embeddingMachine) hrun
  obtain ⟨h₀, post, hj⟩ := Journal.eq_cons_of_made? hmade
  rw [hj] at hfree hsteps hhistory
  have hfree : ∀ ev ∈ post, ev.rebinds ⟨0⟩ = false := by
    intro ev hev
    exact (Bool.not_eq_true' _).mp (List.all_eq_true.mp hfree ev hev)
  obtain ⟨f, hserves⟩ := (listIterator_history hhistory).2.1 [] _ _ h₀ post rfl hfree
  exact ⟨_, h₀, post, hhistory, f, hserves, hsteps⟩

end IterationEngine
