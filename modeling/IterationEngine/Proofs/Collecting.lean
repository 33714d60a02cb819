import IterationEngine.Proofs.Collection
import IterationEngine.Proofs.Confined
import IterationEngine.Proofs.ForOf

/-!
# Consumers that take every value

Lists and sets made of the values of an iterable, whatever guest code does meanwhile.

1. `Repeated`, `Ended`, `Consumed`: the whole of a run of the protocol, with what came of each of its rounds and with
   the exception that ended it, if one did.
2. `drain_eq_some`, `fillSet_recorded`: by induction on the rounds, every run of a consumer is of that form.
3. `collecting`: what the list and the set are, and that the iterator's `return` is never looked up.
-/

namespace IterationEngine

variable {H : Type}

/-- Rounds that follow one another, each with something that comes of it. -/
inductive Repeated {σ β : Type} (round : σ → β → σ → Prop) : σ → List β → σ → Prop
  | none (s : σ) : Repeated round s [] s
  | more {s s₁ s' : σ} {b : β} {bs : List β} :
      round s b s₁ → Repeated round s₁ bs s' → Repeated round s (b :: bs) s'

namespace Iterator

/-! ## Runs of the protocol -/

/-- How the rounds of a consumer come to an end of themselves: there is no further item, or asking for one fails with
an exception, which is left pending. -/
inductive Ended (g : Guest H) (iterator : ObjectId) (m : Machine H) : Option Value → Machine H → Prop
  | exhausted {m' : Machine H} : Taken g iterator m .exhausted m' → Ended g iterator m none m'
  | failed {e : Value} {m' : Machine H} :
      Taken g iterator m .failed m' → m'.pending = some e → Ended g iterator m (some e) m'

/-- A whole run of the protocol. An iterator is got, once, and then come the rounds, until there is no further item or
something fails. -/
inductive Consumed {β : Type} (g : Guest H) (start : Run H Handle)
    (round : ObjectId → Machine H → β → Machine H → Prop) (m : Machine H) :
    List β → Option Value → Machine H → Prop
  | noIterator {e : Value} {m' : Machine H} :
      start m = some (none, m') → m'.pending = some e → Consumed g start round m [] (some e) m'
  | ran {iterator : ObjectId} {bs : List β} {failure : Option Value} {m₁ m₂ m' : Machine H} :
      start m = some (some iterator, m₁) → m₁.pending = none → Repeated (round iterator) m₁ bs m₂ →
      Ended g iterator m₂ failure m' → Consumed g start round m bs failure m'

/-- A round that takes a value. -/
def ValueRound (g : Guest H) (iterator : ObjectId) (m : Machine H) (v : Value) (m' : Machine H) : Prop :=
  Taken g iterator m (.value v) m'

/-- A round that takes a value and adds it to a set. -/
def SetRound (g : Guest H) (set iterator : ObjectId) (m : Machine H) (v : Value) (m' : Machine H) : Prop :=
  ∃ m₁, Taken g iterator m (.value v) m₁ ∧ m' = m₁.withRealm (insertValue set v m₁.realm).2

variable {g : Guest H}

/-- What has ended the rounds is what is pending. -/
theorem Ended.pending {iterator : ObjectId} {failure : Option Value} {m m' : Machine H}
    (h : Ended g iterator m failure m') : m'.pending = failure := by
  cases h with
  | exhausted ht => exact ht.pending nofun
  | failed _ hp => exact hp

theorem Ended.of_failed {iterator : ObjectId} {m m' : Machine H} (h : Taken g iterator m .failed m') :
    ∃ e, Ended g iterator m (some e) m' := by
  obtain ⟨e, he⟩ := Option.isSome_iff_exists.mp (h.failed_iff.mp rfl)
  exact ⟨e, .failed h he⟩

theorem Consumed.pending {β : Type} {start : Run H Handle} {round : ObjectId → Machine H → β → Machine H → Prop}
    {bs : List β} {failure : Option Value} {m m' : Machine H} (h : Consumed g start round m bs failure m') :
    m'.pending = failure := by
  cases h with
  | noIterator _ hp => exact hp
  | ran _ _ _ hend => exact hend.pending

/-! ## Lists -/

/-- Draining: the values in the order in which they were taken, or none of them. -/
theorem drain_eq_some {rounds : Nat} {iterator : ObjectId} {taken : Array Value} {vs : List Value}
    {m m' : Machine H} (h : drain g rounds iterator taken m = some (vs, m')) :
    ∃ us failure m₁, Repeated (ValueRound g iterator) m us m₁ ∧ Ended g iterator m₁ failure m' ∧
      vs = failure.elim (taken.toList ++ us) fun _ => [] := by
  induction rounds generalizing taken m with
  | zero => cases h
  | succ rounds ih =>
    obtain ⟨x, m₁, hitem, h⟩ := Run.bind_eq_some.mp h
    have ht := taken_of_item hitem
    cases x with
    | failed =>
      obtain ⟨rfl, rfl⟩ := Run.pure_eq_some h
      obtain ⟨e, hend⟩ := Ended.of_failed ht
      exact ⟨[], some e, m, .none m, hend, rfl⟩
    | exhausted =>
      obtain ⟨rfl, rfl⟩ := Run.pure_eq_some h
      exact ⟨[], none, m, .none m, .exhausted ht, (List.append_nil _).symm⟩
    | value v =>
      obtain ⟨us, failure, m₂, hrounds, hend, hvs⟩ := ih h
      refine ⟨v :: us, failure, m₂, .more ht hrounds, hend, ?_⟩
      rw [hvs, Array.toList_push, List.append_assoc, List.singleton_append]

theorem toList_eq_some {iterable : Value} {method : Option Value} {vs : List Value} {m m' : Machine H}
    (h : toList g iterable method m = some (vs, m')) :
    ∃ us failure, Consumed g (method.elim (of g iterable) (ofMethod g iterable)) (ValueRound g) m us failure m' ∧
      vs = failure.elim us fun _ => [] := by
  have hsignals : Run.Signals (method.elim (of g iterable) (ofMethod g iterable)) := by
    cases method with
    | none => exact signals_of g iterable
    | some method => exact signals_ofMethod g iterable method
  rw [toList_eq] at h
  obtain ⟨iterator, m₁, hstart, h⟩ := Run.bind_eq_some.mp h
  cases iterator with
  | none =>
    obtain ⟨rfl, rfl⟩ := Run.pure_eq_some h
    obtain ⟨e, he⟩ := exists_pending_of_signals hsignals hstart
    exact ⟨[], some e, .noIterator hstart he, rfl⟩
  | some iterator =>
    obtain ⟨us, failure, m₂, hrounds, hend, hvs⟩ := drain_eq_some h
    exact ⟨us, failure, .ran hstart (pending_of_signals hsignals hstart) hrounds hend, hvs⟩

/-! ## Fresh collections -/

end Iterator

namespace Machine

/-- The identity of the next object. -/
def freshId (m : Machine H) : ObjectId := ⟨m.realm.heap.size⟩

/-- The machine after an object has been allocated. -/
def allocating (m : Machine H) (o : Object) : Machine H := m.withRealm (Realm.alloc o m.realm).2

/-- A fresh map as the engine makes it. -/
def emptyMap (m : Machine H) : Object :=
  { kind := .map .empty, prototype := m.realm.context.intrinsic .mapPrototype }

/-- A fresh set as the engine makes it. -/
def emptySet (m : Machine H) : Object :=
  { kind := .set .empty, prototype := m.realm.context.intrinsic .setPrototype }

theorem get?_freshId (m : Machine H) : m.realm.heap.get? m.freshId = none :=
  Heap.get?_alloc_fst m.realm.heap m.emptyMap

theorem get?_allocating (m : Machine H) (o : Object) :
    (m.allocating o).realm.heap.get? m.freshId = some o :=
  Heap.get?_alloc_self m.realm.heap o

theorem kind?_allocating (m : Machine H) (o : Object) :
    (m.allocating o).realm.heap.kind? m.freshId = some o.kind := by
  rw [Heap.kind?, get?_allocating, Option.map_some]

end Machine

/-- Adding a value to an object that is a set. -/
def ObjectKind.addValue (v : Value) : ObjectKind → ObjectKind
  | .set data => .set (data.insert v)
  | k => k

theorem ObjectKind.foldl_addValue (data : SetData) (vs : List Value) :
    vs.foldl (fun k v => ObjectKind.addValue v k) (.set data) = .set (vs.foldl SetData.insert data) := by
  induction vs generalizing data with
  | nil => rfl
  | cons v rest ih => exact ih (data.insert v)

namespace Iterator

variable {g : Guest H}

/-! ## Sets -/

theorem turned_insertValue (set : ObjectId) (v : Value) (n : Machine (H × Journal)) :
    Machine.Turned set (ObjectKind.addValue v) n (n.withRealm (insertValue set v n.realm).2) := by
  refine Machine.Turned.modify fun o => ?_
  obtain ⟨kind, _, _, _⟩ := o
  cases kind <;> rfl

theorem turned_item {iterator id : ObjectId} {x : Item} {n n' : Machine (H × Journal)}
    (h : item g.recorded iterator n = some (x, n')) : Machine.Turned id (fun k => k) n n' := by
  have hconfined : Run.Confined g.recorded (fun _ => True) (fun _ => False) (item g.recorded iterator) :=
    confined_item trivial trivial trivial iterator
  exact hconfined.keepsKind not_false h

theorem turned_of {iterable : Value} {id : ObjectId} {iterator : Handle} {n n' : Machine (H × Journal)}
    (h : of g.recorded iterable n = some (iterator, n')) : Machine.Turned id (fun k => k) n n' := by
  have hconfined : Run.Confined g.recorded (fun _ => True) (fun _ => False) (of g.recorded iterable) :=
    confined_of (fun _ => trivial) iterable
  exact hconfined.keepsKind not_false h

/-- Filling a set, with guest code that keeps a journal: the values are added in the order in which they were taken. -/
theorem fillSet_recorded {rounds : Nat} {iterator set : ObjectId} {r : Handle} {n n' : Machine (H × Journal)}
    (h : fillSet g.recorded rounds iterator set n = some (r, n')) :
    ∃ vs failure m, Repeated (SetRound g set iterator) n.unrecorded vs m ∧
      Ended g iterator m failure n'.unrecorded ∧ r = failure.elim (some set) (fun _ => none) ∧
      Machine.Turned set (fun k => vs.foldl (fun k v => ObjectKind.addValue v k) k) n n' := by
  induction rounds generalizing n with
  | zero => cases h
  | succ rounds ih =>
    obtain ⟨x, n₁, hitem, h⟩ := Run.bind_eq_some.mp h
    obtain ⟨ht, -⟩ := taken_of_recorded hitem
    have hturned : Machine.Turned set (fun k => k) n n₁ := turned_item hitem
    cases x with
    | failed =>
      obtain ⟨rfl, rfl⟩ := Run.pure_eq_some h
      obtain ⟨e, hend⟩ := Ended.of_failed ht
      exact ⟨[], some e, _, .none _, hend, rfl, hturned⟩
    | exhausted =>
      obtain ⟨rfl, rfl⟩ := Run.pure_eq_some h
      exact ⟨[], none, _, .none _, .exhausted ht, rfl, hturned⟩
    | value v =>
      obtain ⟨_, n₂, hinsert, h⟩ := Run.bind_eq_some.mp h
      obtain ⟨-, rfl⟩ := Run.lift_eq_some hinsert
      obtain ⟨vs, failure, m, hrounds, hend, hr, hrest⟩ := ih h
      refine ⟨v :: vs, failure, m, .more ⟨_, ht, rfl⟩ hrounds, hend, hr, ?_⟩
      exact (hturned.trans (turned_insertValue set v n₁)).trans hrest

/-- What making a set of an iterable comes to; `j` holds the calls that are made. -/
inductive SetMade (g : Guest H) (iterable : Value) (m : Machine H) (j : Journal) : Handle → Machine H → Prop
  /-- Nothing to iterate over: the set is empty, and no function is called. -/
  | empty : iterable.isNullish = true → j = [] →
      SetMade g iterable m j (some m.freshId) (m.allocating m.emptySet)
  /-- The set has the first of the values that are the same, in their order, if the calls leave it alone: they have
  not been given the set. -/
  | filled {vs : List Value} {m' : Machine H} :
      iterable.isNullish = false →
      Consumed g (of g iterable) (SetRound g m.freshId) (m.allocating m.emptySet) vs none m' → m'.pending = none →
      (j.Spares m.freshId → m'.realm.heap.setData? m.freshId = some ⟨SetData.firsts vs⟩) →
      SetMade g iterable m j (some m.freshId) m'
  | failed {vs : List Value} {e : Value} {m' : Machine H} :
      iterable.isNullish = false →
      Consumed g (of g iterable) (SetRound g m.freshId) (m.allocating m.emptySet) vs (some e) m' →
      m'.pending = some e → SetMade g iterable m j none m'

/-- Getting an iterator, with guest code that keeps a journal. -/
theorem of_recorded {iterable : Value} {iterator : Handle} {n n' : Machine (H × Journal)}
    (h : of g.recorded iterable n = some (iterator, n')) :
    of g iterable n.unrecorded = some (iterator, n'.unrecorded) := by
  obtain ⟨m', hof, hn⟩ := ((mirror_recorded g).of iterable).exists_left rfl h
  obtain rfl : n'.unrecorded = m' := hn
  exact hof

/-- Making a set begins with a fresh object. -/
theorem toSet_apply (g : Guest H) (iterable : Value) (m : Machine H) :
    toSet g iterable m =
      (if iterable.isNullish = true then pure (some m.freshId)
      else do
        match ← of g iterable with
        | none => return none
        | some iterator => fillSet g g.rounds iterator m.freshId : Run H Handle) (m.allocating m.emptySet) := rfl

theorem toSet_recorded {iterable : Value} {r : Handle} {n n' : Machine (H × Journal)}
    (h : toSet g.recorded iterable n = some (r, n')) :
    ∃ j, n'.journal = n.journal ++ j ∧ SetMade g iterable n.unrecorded j r n'.unrecorded := by
  rw [toSet_apply] at h
  split at h
  · next hnullish =>
    obtain ⟨rfl, rfl⟩ := Run.pure_eq_some h
    exact ⟨[], (List.append_nil _).symm, .empty hnullish rfl⟩
  · next hnullish =>
    have hiterable : iterable.isNullish = false := Bool.eq_false_iff.mpr hnullish
    obtain ⟨iterator, n₁, hof, h⟩ := Run.bind_eq_some.mp h
    have hstart := of_recorded hof
    have hturned : Machine.Turned n.freshId (fun k => k) _ n₁ := turned_of hof
    cases iterator with
    | none =>
      obtain ⟨rfl, rfl⟩ := Run.pure_eq_some h
      obtain ⟨e, he⟩ := exists_pending_of_signals (signals_of g iterable) hstart
      obtain ⟨j, hj, -⟩ := hturned
      exact ⟨j, hj, .failed hiterable (.noIterator hstart he) he⟩
    | some iterator =>
      obtain ⟨vs, failure, m, hrounds, hend, rfl, hfilled⟩ := fillSet_recorded h
      have hconsumed := Consumed.ran hstart (pending_of_signals (signals_of g iterable) hstart) hrounds hend
      obtain ⟨j, hj, hkind⟩ := hturned.trans hfilled
      refine ⟨j, hj, ?_⟩
      cases failure with
      | some e => exact .failed hiterable hconsumed hconsumed.pending
      | none =>
        refine .filled hiterable hconsumed hconsumed.pending fun hspares => ?_
        have hset := hkind _ hspares (n.kind?_allocating n.emptySet)
        have hfold := hset.trans (congrArg some (ObjectKind.foldl_addValue .empty vs))
        rw [← SetData.values_foldl_insert_empty]
        exact Heap.setData?_of_kind hfold

/-! ## What is never looked up -/

theorem iteratorKey_ne_return (c : Context) : c.iteratorKey ≠ "return" := c.symbols.iterator.key_ne (by decide)

/-- The operations of which consumers are made never look `return` up. -/
structure SparesReturn (g : Guest H) : Prop where
  of : ∀ v, Run.Confined g (· ≠ "return") (fun _ => False) (of g v)
  ofMethod : ∀ v method, Run.Confined g (· ≠ "return") (fun _ => False) (ofMethod g v method)
  item : ∀ iterator, Run.Confined g (· ≠ "return") (fun _ => False) (item g iterator)
  entryOf : ∀ v, Run.Confined g (· ≠ "return") (fun _ => False) (entryOf g v)

theorem sparesReturn (g : Guest H) : SparesReturn g where
  of v := confined_of iteratorKey_ne_return v
  ofMethod v method := confined_ofMethod v method
  item iterator := confined_item (by decide) (by decide) (by decide) iterator
  entryOf v := confined_entryOf (by decide) (by decide) v

theorem confined_drain (g : Guest H) (rounds : Nat) (iterator : ObjectId) (taken : Array Value) :
    Run.Confined g (· ≠ "return") (fun _ => False) (drain g rounds iterator taken) := by
  induction rounds generalizing taken with
  | zero => exact .diverge
  | succ rounds ih =>
    refine .bind ((sparesReturn g).item iterator) fun x => ?_
    cases x with
    | failed => exact .pure _
    | exhausted => exact .pure _
    | value v => exact ih _

theorem confined_toList (g : Guest H) (iterable : Value) (method : Option Value) :
    Run.Confined g (· ≠ "return") (fun _ => False) (toList g iterable method) := by
  rw [toList_eq]
  refine .bind ?_ fun iterator => ?_
  · cases method with
    | none => exact (sparesReturn g).of iterable
    | some method => exact (sparesReturn g).ofMethod iterable method
  · cases iterator with
    | none => exact .pure _
    | some iterator => exact confined_drain g g.rounds iterator #[]

theorem confined_toSet (g : Guest H) (iterable : Value) :
    Run.Confined g (· ≠ "return") (fun _ => True) (toSet g iterable) := by
  have hfill : ∀ rounds iterator set,
      Run.Confined g (· ≠ "return") (fun _ => True) (fillSet g rounds iterator set) := by
    intro rounds iterator set
    induction rounds with
    | zero => exact .diverge
    | succ rounds ih =>
      refine .bind (confined_item (by decide) (by decide) (by decide) iterator) fun x => ?_
      cases x with
      | failed => exact .pure _
      | exhausted => exact .pure _
      | value v => exact .bind (.insertValue v trivial) fun _ => ih
  refine .bind (.intrinsic _) fun prototype => .bind (.alloc _) fun set => ?_
  split
  · exact .pure _
  refine .bind (confined_of iteratorKey_ne_return iterable) fun iterator => ?_
  cases iterator with
  | none => exact .pure _
  | some iterator => exact hfill _ iterator set

/-! ## Lists and sets -/

/-- What those may rely on who collect the values of an iterable. -/
structure Collecting (g : Guest H) : Prop where
  /-- The values of the run of the protocol, all of them and in their order, or no value and the exception that ended
  the run pending. -/
  toList : ∀ {iterable method vs m m'}, toList g iterable method m = some (vs, m') →
    ∃ us failure, Consumed g (method.elim (of g iterable) (ofMethod g iterable)) (ValueRound g) m us failure m' ∧
      m'.pending = failure ∧ vs = failure.elim us fun _ => []
  /-- A fresh set of the values, or no set and the exception that ended the run pending. -/
  toSet : ∀ {iterable r m m'}, toSet g iterable m = some (r, m') →
    ∃ j, toSet g.recorded iterable (m.recording []) = some (r, m'.recording j) ∧
      m.realm.heap.get? m.freshId = none ∧ SetMade g iterable m j r m'
  listSparesReturn : ∀ iterable method,
    Run.Confined g (· ≠ "return") (fun _ => False) (Iterator.toList g iterable method)
  setSparesReturn : ∀ iterable, Run.Confined g (· ≠ "return") (fun _ => True) (Iterator.toSet g iterable)

/-- Lists and sets are collected exactly, whatever guest code does, and their iterators are never closed. -/
theorem collecting (g : Guest H) : Collecting g where
  toList := by
    intro iterable method vs m m' h
    obtain ⟨us, failure, hconsumed, hvs⟩ := toList_eq_some h
    exact ⟨us, failure, hconsumed, hconsumed.pending, hvs⟩
  toSet := by
    intro iterable r m m' h
    obtain ⟨j, hj⟩ := ((mirror_recorded g).toSet iterable).exists_journal h []
    obtain ⟨j', hj', hmade⟩ := toSet_recorded hj
    obtain rfl : j = j' := hj'
    exact ⟨j, hj, m.get?_freshId, hmade⟩
  listSparesReturn := confined_toList g
  setSparesReturn := confined_toSet g

end Iterator

/-! ## A list and a set of one value -/

/-- The list has the one value, and so has the set, which the three calls that are made have left alone. -/
theorem collecting_countingGuest :
    (∃ m', Iterator.toList countingGuest (.object ⟨0⟩) none iterableMachine = some ([.string "a"], m') ∧
      Iterator.Consumed countingGuest (Iterator.of countingGuest (.object ⟨0⟩)) (Iterator.ValueRound countingGuest)
        iterableMachine [.string "a"] none m') ∧
    ∃ (vs : List Value) (m' : Machine Nat) (j : Journal),
      Iterator.toSet countingGuest (.object ⟨0⟩) iterableMachine = some (some ⟨5⟩, m') ∧
      j.length = 3 ∧ j.Spares ⟨5⟩ ∧ SetData.firsts vs = [.string "a"] ∧
      m'.realm.heap.setData? ⟨5⟩ = some ⟨SetData.firsts vs⟩ ∧
      Iterator.Consumed countingGuest (Iterator.of countingGuest (.object ⟨0⟩)) (Iterator.SetRound countingGuest ⟨5⟩)
        (iterableMachine.allocating iterableMachine.emptySet) vs none m' := by
  constructor
  · have hcheck : (Iterator.toList countingGuest (.object ⟨0⟩) none iterableMachine).map Prod.fst =
        some [.string "a"] := by decide +kernel
    obtain ⟨⟨vs, m'⟩, hlist, rfl⟩ := Option.map_eq_some_iff.mp hcheck
    obtain ⟨us, failure, hconsumed, -, hvs⟩ := (Iterator.collecting countingGuest).toList hlist
    cases failure with
    | some e => cases hvs
    | none =>
      obtain rfl : [.string "a"] = us := hvs
      exact ⟨m', hlist, hconsumed⟩
  · obtain ⟨r, m', j, hset, -, hcheck, -, hmade⟩ := exists_recorded
      (Iterator.toSet countingGuest (.object ⟨0⟩) iterableMachine)
      (fun p => p.1 == some ⟨5⟩ && p.2.journal.length == 3 && decide (p.2.journal.Spares ⟨5⟩) &&
        p.2.realm.heap.setData? ⟨5⟩ == some ⟨[.string "a"]⟩)
      (fun _ _ => (Iterator.collecting countingGuest).toSet) (by decide +kernel) (by decide +kernel)
    simp only [Bool.and_eq_true, beq_iff_eq, decide_eq_true_eq] at hcheck
    obtain ⟨⟨⟨hr, hlength⟩, hspares⟩, hdata⟩ := hcheck
    cases hmade with
    | empty hnullish => cases hnullish
    | failed => cases hr
    | filled _ hconsumed _ hfilled =>
      have hfirsts := hfilled hspares
      have hvs : SetData.firsts _ = _ := congrArg SetData.values (Option.some.inj (hfirsts.symm.trans hdata))
      exact ⟨_, m', j, hset, hlength, hspares, hvs, hfirsts, hconsumed⟩

end IterationEngine
