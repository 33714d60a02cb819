import IterationEngine.Proofs.Collecting
import IterationEngine.Proofs.Failure

/-!
# Making a map of an iterable

A map made of the entries of an iterable, whatever guest code does meanwhile.

Two kinds of failures end it early. If the run of the protocol fails, the iterator is left as it is, as other
consumers do. If the consumer fails, because an item is no entry or reading one fails, it closes the iterator, once,
with that failure as a throw.

1. `EntryRead`, `Rejected`: what becomes of an item.
2. `fillMap_recorded`: by induction on the rounds, every run has one of the forms that `FillEnded` lists.
3. `toMap_outcome`: the whole operation, from any machine.
4. `toMap_rejection_replaced`: the failure need not be what is pending in the end, since looking up `return` may fail
   as well.
-/

namespace IterationEngine

variable {H : Type}

/-- Adding an entry to an object that is a map. -/
def ObjectKind.addEntry (e : Value × Value) : ObjectKind → ObjectKind
  | .map data => .map (data.insert e.1 e.2)
  | k => k

/-- The map that has these entries added to it, one after the other. -/
def MapData.insertAll (data : MapData) (entries : List (Value × Value)) : MapData :=
  entries.foldl (fun data e => data.insert e.1 e.2) data

theorem ObjectKind.foldl_addEntry (data : MapData) (entries : List (Value × Value)) :
    entries.foldl (fun k e => ObjectKind.addEntry e k) (.map data) = .map (data.insertAll entries) := by
  induction entries generalizing data with
  | nil => rfl
  | cons e rest ih => exact ih (data.insert e.1 e.2)

namespace Iterator

/-! ## Entries -/

/-- An item is an entry: an object whose properties `0` and `1` can be read. -/
inductive EntryRead (g : Guest H) (item : Value) (m : Machine H) : Value × Value → Machine H → Prop
  | mk {id : ObjectId} {key v : Value} {m₁ m' : Machine H} :
      item = .object id → Access.getFrom g (some id) "0" m = some (key, m₁) → m₁.pending = none →
      Access.getFrom g (some id) "1" m₁ = some (v, m') → m'.pending = none → EntryRead g item m (key, v) m'

/-- An item is no entry, with the exception that tells so: a fresh type error if it is no object, and otherwise what
reading `0` or `1` has raised. -/
inductive Rejected (g : Guest H) (item : Value) (m : Machine H) : Value → Machine H → Prop
  | noObject {e : Value} {m' : Machine H} :
      item.isObject = false → m'.pending = some e →
      m.realm.Raised m'.realm .typeError
        ("Iterator value " ++ item.text m.realm.heap.objectText ++ " is not an entry object") →
      Rejected g item m e m'
  | keyFailed {id : ObjectId} {key e : Value} {m' : Machine H} :
      item = .object id → Access.getFrom g (some id) "0" m = some (key, m') → m'.pending = some e →
      Rejected g item m e m'
  | valueFailed {id : ObjectId} {key v e : Value} {m₁ m' : Machine H} :
      item = .object id → Access.getFrom g (some id) "0" m = some (key, m₁) → m₁.pending = none →
      Access.getFrom g (some id) "1" m₁ = some (v, m') → m'.pending = some e → Rejected g item m e m'

/-- Looking up `return` of the iterator fails with `f`. -/
def LookupFails (g : Guest H) (iterator : ObjectId) (m : Machine H) (f : Value) : Prop :=
  ∃ method m', Access.getMethod g (.object iterator) "return" m = some (method, m') ∧ m'.pending = some f

/-- A round that takes an entry and adds it to a map. -/
def MapRound (g : Guest H) (map iterator : ObjectId) (m : Machine H) (e : Value × Value) (m' : Machine H) : Prop :=
  ∃ item m₁ m₂, Taken g iterator m (.value item) m₁ ∧ EntryRead g item m₁ e m₂ ∧
    m' = m₂.withRealm (insertEntry map e.1 e.2 m₂.realm).2

/-- What comes of an item that is no entry: the iterator is closed with the failure, and the throw that closing reports
is made pending. It is the failure itself, unless looking up `return` fails. -/
inductive ClosedOn (g : Guest H) (iterator : ObjectId) (e : Value) (m : Machine H) : Value → Machine H → Prop
  | mk {f : Value} {m' : Machine H} :
      close g (some iterator) (.throws e) m.settled = some (.throws f, m') → m'.pending = none →
      f = e ∨ LookupFails g iterator m.settled f →
      ClosedOn g iterator e m f (m'.withRealm (Realm.raise f m'.realm).2)

variable {g : Guest H}

theorem entryOf_eq_some {item : Value} {entry : Option (Value × Value)} {m m' : Machine H}
    (h : entryOf g item m = some (entry, m')) :
    (∃ e, entry = some e ∧ EntryRead g item m e m') ∨ (entry = none ∧ ∃ e, Rejected g item m e m') := by
  unfold entryOf at h
  split at h
  · next id =>
    obtain ⟨key, m₁, hkey, h⟩ := Run.bind_eq_some.mp h
    rcases Run.ifPending_eq_some.mp h with ⟨e, hp, h⟩ | ⟨hp, h⟩
    · obtain ⟨rfl, rfl⟩ := Run.pure_eq_some h
      exact .inr ⟨rfl, e, .keyFailed rfl hkey hp⟩
    · obtain ⟨v, m₂, hv, h⟩ := Run.bind_eq_some.mp h
      rcases Run.ifPending_eq_some.mp h with ⟨e, hp₂, h⟩ | ⟨hp₂, h⟩
      · obtain ⟨rfl, rfl⟩ := Run.pure_eq_some h
        exact .inr ⟨rfl, e, .valueFailed rfl hkey hp hv hp₂⟩
      · obtain ⟨rfl, rfl⟩ := Run.pure_eq_some h
        exact .inl ⟨(key, v), rfl, .mk rfl hkey hp hv hp₂⟩
  · next hobject =>
    rw [Run.textOf_bind_apply, Run.lift_bind_apply] at h
    obtain ⟨rfl, rfl⟩ := Run.pure_eq_some h
    have hno : item.isObject = false := by
      cases item with
      | object id => exact absurd rfl (hobject id)
      | _ => rfl
    exact .inr ⟨rfl, _, .noObject hno (m.pending_withError _ _) (m.realm.raised_withError _ _)⟩

/-- A rejected item leaves an exception pending. -/
theorem Rejected.pending {item e : Value} {m m' : Machine H} (h : Rejected g item m e m') : m'.pending = some e := by
  cases h with
  | noObject _ hp | keyFailed _ _ hp | valueFailed _ _ _ _ hp => exact hp

/-! ## Closing after a failure -/

/-- Closing with a throw reports the throw, unless looking up `return` fails. -/
theorem Closing.throws {iterator method : Handle} {e : Value} {o : Completion} {m m' : Machine H} {calls : Journal}
    (h : Closing g iterator (.throws e) m method calls o m') :
    ∃ f, o = .throws f ∧ (f = e ∨ m.pending = some f) := by
  cases h with
  | lookupFailed hp => exact ⟨_, rfl, .inr hp⟩
  | absent => exact ⟨e, rfl, .inl rfl⟩
  | called _ _ ha =>
    cases ha with
    | thrown => exact ⟨e, rfl, .inl rfl⟩
    | cleanupThrew hf | kept hf | rejected hf => cases hf

theorem closedOn_of_closeFailed {iterator : ObjectId} {e : Value} {m m' : Machine H}
    (h : closeFailed g iterator m = some ((), m')) (hp : m.pending = some e) :
    ∃ f, ClosedOn g iterator e m f m' := by
  obtain ⟨thrown, m₁, htake, h⟩ := Run.bind_eq_some.mp h
  obtain ⟨o, m₂, hclose, h⟩ := Run.bind_eq_some.mp h
  rw [Run.takePending_of_pending hp, Option.some.injEq, Prod.mk.injEq] at htake
  obtain ⟨rfl, rfl⟩ := htake
  obtain ⟨method, m₃, _, _, hmethod, -, hclosing, -⟩ := closing_of_close hclose
  obtain ⟨f, rfl, hf⟩ := hclosing.throws
  obtain ⟨-, rfl⟩ := Run.lift_eq_some h
  exact ⟨f, .mk hclose (pending_of_close hclose) (hf.imp_right fun hpending => ⟨method, m₃, hmethod, hpending⟩)⟩

/-! ## Filling a map -/

theorem turned_insertEntry (map : ObjectId) (e : Value × Value) (n : Machine (H × Journal)) :
    Machine.Turned map (ObjectKind.addEntry e) n (n.withRealm (insertEntry map e.1 e.2 n.realm).2) := by
  refine Machine.Turned.modify fun o => ?_
  obtain ⟨kind, _, _, _⟩ := o
  cases kind <;> rfl

/-- Reading an entry, with guest code that keeps a journal. -/
theorem entryOf_recorded (id : ObjectId) {item : Value} {entry : Option (Value × Value)}
    {n n' : Machine (H × Journal)} (h : entryOf g.recorded item n = some (entry, n')) :
    entryOf g item n.unrecorded = some (entry, n'.unrecorded) ∧ Machine.Turned id (fun k => k) n n' := by
  obtain ⟨m', hm, hn⟩ := ((mirror_recorded g).entryOf item).exists_left rfl h
  obtain rfl : n'.unrecorded = m' := hn
  have hconfined : Run.Confined g.recorded (fun _ => True) (fun _ => False) (entryOf g.recorded item) :=
    confined_entryOf trivial trivial item
  exact ⟨hm, hconfined.keepsKind not_false h⟩

theorem closeFailed_recorded {iterator : ObjectId} {n n' : Machine (H × Journal)}
    (h : closeFailed g.recorded iterator n = some ((), n')) :
    closeFailed g iterator n.unrecorded = some ((), n'.unrecorded) := by
  obtain ⟨m', hm, hn⟩ := ((mirror_recorded g).closeFailed Records.sim_raise iterator).exists_left rfl h
  obtain rfl : n'.unrecorded = m' := hn
  exact hm

/-- How filling a map comes to an end: of itself, or because the next item is no entry. -/
inductive FillEnded (g : Guest H) (map iterator : ObjectId) (m : Machine H) : Handle → Machine H → Prop
  | ended {failure : Option Value} {m' : Machine H} :
      Ended g iterator m failure m' → FillEnded g map iterator m (failure.elim (some map) fun _ => none) m'
  | rejected {item e f : Value} {m₁ m₂ m' : Machine H} :
      Taken g iterator m (.value item) m₁ → Rejected g item m₁ e m₂ → ClosedOn g iterator e m₂ f m' →
      FillEnded g map iterator m none m'

/-- Filling a map, with guest code that keeps a journal: the entries are added in the order in which they were
taken. -/
theorem fillMap_recorded {rounds : Nat} {iterator map : ObjectId} {r : Handle} {n n' : Machine (H × Journal)}
    (h : fillMap g.recorded rounds iterator map n = some (r, n')) :
    ∃ entries m, Repeated (MapRound g map iterator) n.unrecorded entries m ∧
      FillEnded g map iterator m r n'.unrecorded ∧
      (r = some map → Machine.Turned map (fun k => entries.foldl (fun k e => ObjectKind.addEntry e k) k) n n') := by
  induction rounds generalizing n with
  | zero => cases h
  | succ rounds ih =>
    obtain ⟨x, n₁, hitem, h⟩ := Run.bind_eq_some.mp h
    obtain ⟨ht, -⟩ := taken_of_recorded hitem
    have htaken : Machine.Turned map (fun k => k) n n₁ := turned_item hitem
    cases x with
    | failed =>
      obtain ⟨rfl, rfl⟩ := Run.pure_eq_some h
      obtain ⟨e, hend⟩ := Ended.of_failed ht
      exact ⟨[], _, .none _, .ended hend, fun _ => htaken⟩
    | exhausted =>
      obtain ⟨rfl, rfl⟩ := Run.pure_eq_some h
      exact ⟨[], _, .none _, .ended (.exhausted ht), fun _ => htaken⟩
    | value item =>
      obtain ⟨entry, n₂, hentry, h⟩ := Run.bind_eq_some.mp h
      obtain ⟨hread, hkept⟩ := entryOf_recorded map hentry
      rcases entryOf_eq_some hread with ⟨e, rfl, he⟩ | ⟨rfl, e, he⟩
      · obtain ⟨_, n₃, hinsert, h⟩ := Run.bind_eq_some.mp h
        obtain ⟨-, rfl⟩ := Run.lift_eq_some hinsert
        obtain ⟨entries, m, hrounds, hend, hturned⟩ := ih h
        refine ⟨e :: entries, m, .more ⟨item, _, _, ht, he, rfl⟩ hrounds, hend, fun hr => ?_⟩
        exact ((htaken.trans hkept).trans (turned_insertEntry map e n₂)).trans (hturned hr)
      · obtain ⟨_, n₃, hclose, h⟩ := Run.bind_eq_some.mp h
        obtain ⟨rfl, rfl⟩ := Run.pure_eq_some h
        obtain ⟨f, hf⟩ := closedOn_of_closeFailed (closeFailed_recorded hclose) he.pending
        exact ⟨[], _, .none _, .rejected ht he hf, nofun⟩

/-! ## Making a map -/

/-- What making a map of an iterable comes to; `j` holds the calls that are made. -/
inductive MapMade (g : Guest H) (iterable : Value) (m : Machine H) (j : Journal) : Handle → Machine H → Prop
  /-- Nothing to iterate over: the map is empty, and no function is called. -/
  | empty : iterable.isNullish = true → j = [] →
      MapMade g iterable m j (some m.freshId) (m.allocating m.emptyMap)
  /-- Every item was an entry: the map has them all, added in their order, if the calls leave it alone: they have not
  been given the map. -/
  | filled {entries : List (Value × Value)} {m' : Machine H} :
      iterable.isNullish = false →
      Consumed g (of g iterable) (MapRound g m.freshId) (m.allocating m.emptyMap) entries none m' →
      m'.pending = none →
      (j.Spares m.freshId → m'.realm.heap.mapData? m.freshId = some (MapData.empty.insertAll entries)) →
      MapMade g iterable m j (some m.freshId) m'
  /-- The run of the protocol failed, and that is what is pending. -/
  | failed {entries : List (Value × Value)} {e : Value} {m' : Machine H} :
      iterable.isNullish = false →
      Consumed g (of g iterable) (MapRound g m.freshId) (m.allocating m.emptyMap) entries (some e) m' →
      m'.pending = some e → MapMade g iterable m j none m'
  /-- An item was no entry: no further one is asked for, and the iterator is closed, once, with the exception `e` that
  tells so. What is pending in the end is `e` too, unless looking up `return` fails. -/
  | rejected {iterator : ObjectId} {entries : List (Value × Value)} {item e f : Value}
      {m₁ m₂ m₃ m₄ m' : Machine H} :
      iterable.isNullish = false →
      of g iterable (m.allocating m.emptyMap) = some (some iterator, m₁) → m₁.pending = none →
      Repeated (MapRound g m.freshId iterator) m₁ entries m₂ → Taken g iterator m₂ (.value item) m₃ →
      Rejected g item m₃ e m₄ → ClosedOn g iterator e m₄ f m' → m'.pending = some f →
      MapMade g iterable m j none m'

/-- Making a map begins with a fresh object. -/
theorem toMap_apply (g : Guest H) (iterable : Value) (m : Machine H) :
    toMap g iterable m =
      (if iterable.isNullish = true then pure (some m.freshId)
      else do
        match ← of g iterable with
        | none => return none
        | some iterator => fillMap g g.rounds iterator m.freshId : Run H Handle) (m.allocating m.emptyMap) := rfl

theorem toMap_recorded {iterable : Value} {r : Handle} {n n' : Machine (H × Journal)} (hn : n.journal = [])
    (h : toMap g.recorded iterable n = some (r, n')) :
    MapMade g iterable n.unrecorded n'.journal r n'.unrecorded := by
  rw [toMap_apply] at h
  split at h
  · next hnullish =>
    obtain ⟨rfl, rfl⟩ := Run.pure_eq_some h
    exact .empty hnullish hn
  · next hnullish =>
    have hiterable : iterable.isNullish = false := Bool.eq_false_iff.mpr hnullish
    obtain ⟨iterator, n₁, hof, h⟩ := Run.bind_eq_some.mp h
    have hstart := of_recorded hof
    have hkept : Machine.Turned n.freshId (fun k => k) _ n₁ := turned_of hof
    cases iterator with
    | none =>
      obtain ⟨rfl, rfl⟩ := Run.pure_eq_some h
      obtain ⟨e, he⟩ := exists_pending_of_signals (signals_of g iterable) hstart
      exact .failed hiterable (.noIterator hstart he) he
    | some iterator =>
      have hp := pending_of_signals (signals_of g iterable) hstart
      obtain ⟨entries, m₂, hrounds, hend, hfilled⟩ := fillMap_recorded h
      generalize hlast : n'.unrecorded = m' at hend
      cases hend with
      | rejected ht he hclosed =>
        refine .rejected hiterable hstart hp hrounds ht he hclosed ?_
        cases hclosed with
        | mk => rfl
      | @ended failure _ hend =>
        have hconsumed := Consumed.ran hstart hp hrounds hend
        cases failure with
        | some e => exact .failed hiterable hconsumed hconsumed.pending
        | none =>
          refine .filled hiterable hconsumed hconsumed.pending fun hspares => ?_
          obtain ⟨j, hj, hkind⟩ := hkept.trans (hfilled rfl)
          obtain rfl : n'.journal = j := by
            rw [hj]
            exact congrArg (· ++ j) hn
          have hmap := hkind _ hspares (n.kind?_allocating n.emptyMap)
          have hfold := hmap.trans (congrArg some (ObjectKind.foldl_addEntry .empty entries))
          rw [← hlast]
          exact Heap.mapData?_of_kind hfold

/-- Making a map of an iterable, from any machine and whatever guest code does. The map is fresh, and `MapMade` says
what it is filled with or which exception is pending instead. Up to the closing of the iterator nothing looks `return`
up. -/
theorem toMap_outcome {iterable : Value} {r : Handle} {m m' : Machine H}
    (h : toMap g iterable m = some (r, m')) :
    SparesReturn g ∧ m.realm.heap.get? m.freshId = none ∧
      ∃ j, toMap g.recorded iterable (m.recording []) = some (r, m'.recording j) ∧ MapMade g iterable m j r m' := by
  obtain ⟨j, hj⟩ := ((mirror_recorded g).toMap Records.sim_raise iterable).exists_journal h []
  exact ⟨sparesReturn g, m.get?_freshId, j, hj, toMap_recorded rfl hj⟩

end Iterator

/-! ## A map of one entry -/

/-- The iterable of `iterableHeap` once more. Its one value is object 5, an entry. -/
def entryHeap : Heap where
  objects := (iterableHeap.objects.setIfInBounds 3 (.ofResult none (.object ⟨5⟩) false)).push
    { kind := .plain .ordinary
      properties := PropertyTable.withValue
        (PropertyTable.withValue .empty "0" (.string "k") .all) "1" (.string "v") .all }
  allocations := 6
  peak := 6

def entryMachine : Machine Nat where
  realm := { heap := entryHeap, context := idleContext, registry := {} }
  host := 0

/-- The map has the one entry, and the calls that are made have left it alone. -/
theorem toMap_outcome_countingGuest :
    ∃ m', Iterator.toMap countingGuest (.object ⟨0⟩) entryMachine = some (some ⟨6⟩, m') ∧
      m'.realm.heap.mapData? ⟨6⟩ = some ⟨[(.string "k", .string "v")]⟩ ∧
      ∃ j : Journal, j.length = 3 ∧ j.Spares ⟨6⟩ ∧
        Iterator.MapMade countingGuest (.object ⟨0⟩) entryMachine j (some ⟨6⟩) m' := by
  obtain ⟨r, m', j, hmap, -, hcheck, hmade⟩ := exists_recorded
    (Iterator.toMap countingGuest (.object ⟨0⟩) entryMachine)
    (fun p => p.1 == some ⟨6⟩ && p.2.journal.length == 3 && decide (p.2.journal.Spares ⟨6⟩) &&
      p.2.realm.heap.mapData? ⟨6⟩ == some ⟨[(.string "k", .string "v")]⟩)
    (fun _ _ h => (Iterator.toMap_outcome h).2.2) (by decide +kernel) (by decide +kernel)
  simp only [Bool.and_eq_true, beq_iff_eq, decide_eq_true_eq] at hcheck
  obtain ⟨⟨⟨rfl, hlength⟩, hspares⟩, hdata⟩ := hcheck
  exact ⟨m', hmap, hdata, j, hlength, hspares, hmade⟩

/-! ## A failing lookup of `return` -/

/-- Function 1 answers its receiver, function 2 the result 3, and every other function raises a value. -/
def refusingGuest : Guest Unit where
  call := fun f v _ m =>
    if f = ⟨1⟩ then some (v, m)
    else if f = ⟨2⟩ then some (.object ⟨3⟩, m)
    else some (.undefined, m.withRealm (Realm.raise (.string "lookup") m.realm).2)
  rounds := 8

/-- Object 0 is an iterable and its own iterator. Its `next` answers results with the value `a`, which is no entry, and
its `return` is an accessor pair. -/
def refusingHeap : Heap where
  objects := #[
    { kind := .plain .ordinary
      properties := PropertyTable.append
        (PropertyTable.withValue
          (PropertyTable.withValue .empty idleContext.iteratorKey (.object ⟨1⟩) .all) "next" (.object ⟨2⟩) .all)
        "return" (.accessor (some ⟨4⟩) none .accessor) },
    .ofCode "iterator" 0 (.guest ⟨0⟩), .ofCode "next" 0 (.guest ⟨1⟩),
    .ofResult none (.string "a") false, .ofCode "return" 0 (.guest ⟨2⟩)]
  allocations := 5
  peak := 5

def refusingMachine : Machine Unit where
  realm := { heap := refusingHeap, context := idleContext, registry := {} }
  host := ()

/-- An item is rejected with a type error, but in the end another exception is pending: the one that looking up
`return` has raised. -/
theorem toMap_rejection_replaced :
    ¬ ∀ {g : Guest Unit} {iterable item e : Value} {r : Handle} {iterator : ObjectId}
        {entries : List (Value × Value)} {m m₁ m₂ m₃ m₄ m' : Machine Unit},
        m.pending = none → Iterator.toMap g iterable m = some (r, m') →
        Iterator.of g iterable (m.allocating m.emptyMap) = some (some iterator, m₁) →
        Repeated (Iterator.MapRound g m.freshId iterator) m₁ entries m₂ →
        Iterator.Taken g iterator m₂ (.value item) m₃ → Iterator.Rejected g item m₃ e m₄ →
        m'.pending = some e := by
  intro hkept
  have hmap : (Iterator.toMap refusingGuest (.object ⟨0⟩) refusingMachine).map (fun p => p.2.pending) =
      some (some (.string "lookup")) := by decide +kernel
  obtain ⟨⟨r, m'⟩, hmade, hlast⟩ := Option.map_eq_some_iff.mp hmap
  have hrun : ((do
      let iterator ← Iterator.of refusingGuest (.object ⟨0⟩)
      let x ← Iterator.item refusingGuest ⟨0⟩
      let entry ← Iterator.entryOf refusingGuest (.string "a")
      return (iterator, x, entry) : Run Unit (Handle × Iterator.Item × Option (Value × Value)))
        (refusingMachine.allocating refusingMachine.emptyMap)).map (fun p => (p.1, p.2.pending)) =
      some ((some ⟨0⟩, .value (.string "a"), none), some (.object ⟨6⟩)) := by decide +kernel
  obtain ⟨⟨a, m₄⟩, hrun, heq⟩ := Option.map_eq_some_iff.mp hrun
  obtain ⟨rfl, hp⟩ := Prod.mk.inj heq
  obtain ⟨iterator, m₁, hof, hrun⟩ := Run.bind_eq_some.mp hrun
  obtain ⟨x, m₃, hitem, hrun⟩ := Run.bind_eq_some.mp hrun
  obtain ⟨entry, m₄, hentry, hrun⟩ := Run.bind_eq_some.mp hrun
  obtain ⟨hanswer, rfl⟩ := Run.pure_eq_some hrun
  obtain ⟨rfl, rfl, rfl⟩ : some ⟨0⟩ = iterator ∧ .value (.string "a") = x ∧ none = entry := by
    simpa using hanswer
  rcases Iterator.entryOf_eq_some hentry with ⟨_, hsome, -⟩ | ⟨-, e, hrejected⟩
  · cases hsome
  · have hpending := hkept rfl hmade hof (.none m₁) (Iterator.taken_of_item hitem) hrejected
    have he : e = .object ⟨6⟩ := Option.some.inj (hrejected.pending.symm.trans hp)
    rw [hlast, he] at hpending
    cases hpending

end IterationEngine
