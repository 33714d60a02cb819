import Mathlib.Data.List.Basic
import IterationEngine.Proofs.Equality

/-!
# Maps and sets as their histories

What a map or a set holds and answers, read off the operations that were performed on it: a specification that
knows neither entries nor places.

Results:
1. `MapData.insert`, `erase` and `delete` as equations of the observations `keys` and `find?`.
2. `SetData.values_foldl_insert`: adding values one after the other keeps the first of each.
3. `collections_observe_history`: every run from empty collections.
-/

namespace IterationEngine

/-- What an operation on a collection answers. -/
inductive Answer where
  | done
  | flag (b : Bool)
  | value (v : Value)
  deriving DecidableEq, Repr

/-! ## Operations on maps -/

namespace MapData

inductive Operation where
  | set (key v : Value)
  | delete (key : Value)
  | has (key : Value)
  | get (key : Value)
  deriving DecidableEq, Repr

/-- Performs one operation. -/
def perform (m : MapData) : Operation → Answer × MapData
  | .set key v => (.done, m.insert key v)
  | .delete key =>
    let (found, rest) := m.delete key
    (.flag found, rest)
  | .has key => (.flag (m.contains key), m)
  | .get key => (.value ((m.find? key).getD .undefined), m)

/-- Performs operations one after the other. -/
def run (m : MapData) : List Operation → List Answer × MapData
  | [] => ([], m)
  | op :: rest =>
    let (answer, next) := m.perform op
    let (answers, last) := next.run rest
    (answer :: answers, last)

/-! ## What a history says -/

namespace Operation

/-- The operation sets or deletes that key. -/
def writes (op : Operation) (key : Value) : Bool :=
  match op with
  | .set k _ | .delete k => k.sameValueZero key
  | .has _ | .get _ => false

/-- The operation deletes that key. -/
def deletes (op : Operation) (key : Value) : Bool :=
  match op with
  | .delete k => k.sameValueZero key
  | .set _ _ | .has _ | .get _ => false

/-- The value that the operation leaves a key with. -/
def written : Operation → Option Value
  | .set _ v => some v
  | .delete _ | .has _ | .get _ => none

end Operation

/-- The value of a key after a history: what the last operation that wrote the key left. -/
def lastWrite (history : List Operation) (key : Value) : Option Value :=
  (history.reverse.find? (·.writes key)).bind (·.written)

/-- The answer of an operation, from what happened before. -/
def Operation.answer (before : List Operation) : Operation → Answer
  | .set _ _ => .done
  | .delete key | .has key => .flag (lastWrite before key).isSome
  | .get key => .value ((lastWrite before key).getD .undefined)

/-- The key that the operation at that place brought in for good: the key had no value before, and it has not been
deleted since. -/
def foundedAt (history : List Operation) (i : Nat) : Option Value :=
  match history[i]? with
  | some (.set key _) =>
    if (lastWrite (history.take i) key).isNone && !(history.drop (i + 1)).any (·.deletes key) then
      some key.normalizeKey
    else none
  | _ => none

/-- The keys that are there after a history, in the order in which they were brought in. -/
def liveKeys (history : List Operation) : List Value :=
  (List.range history.length).filterMap (foundedAt history)

/-- The keys of a map are pairwise different. -/
def Distinct (m : MapData) : Prop := m.keys.Pairwise fun k l => k.sameValueZero l = false

/-- A map, and the answers given on the way to it, are those that the history tells of. -/
structure Observes (history : List Operation) (answers : List Answer) (m : MapData) : Prop where
  answered : answers.length = history.length
  answer : ∀ i : Nat, answers[i]? = history[i]?.map (·.answer (history.take i))
  has : ∀ key, m.contains key = (lastWrite history key).isSome
  get : ∀ key, m.find? key = lastWrite history key
  distinct : m.Distinct
  noNegZero : .number .negZero ∉ m.keys
  keys : m.keys = liveKeys history
  values : m.values.map some = (liveKeys history).map (lastWrite history)
  entries : m.entries = m.keys.zip m.values
  size : m.size = (liveKeys history).length
  overwrite : ∀ key v, (lastWrite history key).isSome → (m.insert key v).keys = m.keys
  readd : ∀ key v, ((m.delete key).2.insert key v).keys =
    (m.keys.filter fun k => !k.sameValueZero key) ++ [key.normalizeKey]

/-! ## Observations of a map -/

theorem find?_put (entries : List (Value × Value)) (key v k : Value) :
    find? ⟨put entries key v⟩ k = if key.sameValueZero k then some v else find? ⟨entries⟩ k := by
  induction entries with
  | nil =>
    simp only [find?, findEntry?, put, List.find?_cons, List.find?_nil, Value.sameValueZero_normalizeKey]
    cases key.sameValueZero k <;> rfl
  | cons e rest ih =>
    rw [put]
    simp only [find?, findEntry?] at ih ⊢
    cases hkey : e.1.sameValueZero key with
    | true =>
      -- The entry is that of the key, so it is the first one of `k` exactly if `k` is the key.
      simp only [if_true, List.find?_cons, Value.sameValueZero_congr hkey k]
      cases key.sameValueZero k <;> rfl
    | false =>
      simp only [Bool.false_eq_true, if_false, List.find?_cons]
      cases hk : e.1.sameValueZero k with
      | true =>
        have hne : key.sameValueZero k = false := by
          rw [Value.sameValueZero_comm, ← Value.sameValueZero_congr hk, hkey]
        simp [hne]
      | false => simpa using ih

/-- After an insertion the key has the value and every other key what it had. -/
theorem find?_insert (m : MapData) (key v k : Value) :
    (m.insert key v).find? k = if key.sameValueZero k then some v else m.find? k :=
  find?_put m.entries key v k

theorem contains_eq (m : MapData) (key : Value) : m.contains key = (m.find? key).isSome := by
  rw [contains, find?, Option.isSome_map]

theorem keys_put (entries : List (Value × Value)) (key v : Value) :
    (put entries key v).map Prod.fst =
      entries.map Prod.fst ++ if contains ⟨entries⟩ key then [] else [key.normalizeKey] := by
  induction entries with
  | nil => rfl
  | cons e rest ih =>
    have hcontains : contains ⟨e :: rest⟩ key = (e.1.sameValueZero key || contains ⟨rest⟩ key) := by
      simp only [contains, findEntry?, List.find?_cons]
      cases e.1.sameValueZero key <;> rfl
    simp only [put, hcontains]
    cases e.1.sameValueZero key with
    | true => simp
    | false => simp [ih]

/-- An insertion leaves the keys and their places, or adds the key at the end. -/
theorem keys_insert (m : MapData) (key v : Value) :
    (m.insert key v).keys = m.keys ++ if m.contains key then [] else [key.normalizeKey] :=
  keys_put m.entries key v

/-- No key is the same as one that is not there. -/
theorem ne_of_not_contains {m : MapData} {key k : Value} (hkey : m.contains key = false) (hk : k ∈ m.keys) :
    k.sameValueZero key = false := by
  obtain ⟨e, he, rfl⟩ := List.mem_map.mp hk
  rw [contains, findEntry?, Option.isSome_eq_false_iff, Option.isNone_iff_eq_none, List.find?_eq_none] at hkey
  exact Bool.eq_false_iff.mpr (hkey e he)

theorem erase_of_not_contains {m : MapData} {key : Value} (hkey : m.contains key = false) : m.erase key = m := by
  have hnone : ∀ e ∈ m.entries, ¬e.1.sameValueZero key = true := fun e he =>
    Bool.eq_false_iff.mp (ne_of_not_contains hkey (List.mem_map_of_mem he))
  rw [erase, List.eraseP_of_forall_not hnone]

/-- A deletion erases the key and tells whether it was there. -/
theorem delete_eq (m : MapData) (key : Value) : m.delete key = (m.contains key, m.erase key) := by
  unfold delete
  split
  · next hfound => rw [contains, hfound, Option.isSome_some]
  · next hnone =>
    have hkey : m.contains key = false := by rw [contains, hnone, Option.isSome_none]
    rw [hkey, erase_of_not_contains hkey]

/-- Keys being pairwise different, erasing one leaves exactly the entries of others. -/
theorem Distinct.entries_erase {m : MapData} (hm : m.Distinct) (key : Value) :
    (m.erase key).entries = m.entries.filter fun e => !e.1.sameValueZero key := by
  obtain ⟨entries⟩ := m
  show entries.eraseP _ = _
  induction entries with
  | nil => rfl
  | cons e rest ih =>
    obtain ⟨hfirst, hrest⟩ := List.pairwise_cons.mp hm
    rw [List.eraseP_cons, List.filter_cons]
    cases he : e.1.sameValueZero key with
    | true =>
      have hall : ∀ x ∈ rest, (!x.1.sameValueZero key) = true := by
        intro x hx
        rw [Value.sameValueZero_comm, ← Value.sameValueZero_congr he, hfirst x.1 (List.mem_map_of_mem hx)]
        rfl
      simp [List.filter_eq_self.mpr hall]
    | false => simpa using ih hrest

theorem Distinct.keys_erase {m : MapData} (hm : m.Distinct) (key : Value) :
    (m.erase key).keys = m.keys.filter fun k => !k.sameValueZero key := by
  rw [keys, hm.entries_erase key, keys, List.filter_map]
  rfl

theorem Distinct.find?_erase {m : MapData} (hm : m.Distinct) (key k : Value) :
    (m.erase key).find? k = if key.sameValueZero k then none else m.find? k := by
  have hfilter : ∀ e : Value × Value,
      (!e.1.sameValueZero key && e.1.sameValueZero k) = (!key.sameValueZero k && e.1.sameValueZero k) := by
    intro e
    cases hk : e.1.sameValueZero k with
    | true => rw [Value.sameValueZero_congr hk, Value.sameValueZero_comm]
    | false => simp only [Bool.and_false]
  have hfind : (m.erase key).find? k =
      (m.entries.find? fun e => !key.sameValueZero k && e.1.sameValueZero k).map Prod.snd := by
    simp only [find?, findEntry?, hm.entries_erase key, List.find?_filter, ← hfilter, Bool.decide_and,
      Bool.decide_eq_true]
  rw [hfind]
  cases key.sameValueZero k with
  | true => simp
  | false => simp [find?, findEntry?]

theorem Distinct.insert {m : MapData} (hm : m.Distinct) (key v : Value) : (m.insert key v).Distinct := by
  unfold Distinct
  rw [keys_insert]
  cases hkey : m.contains key with
  | true =>
    rw [if_pos rfl, List.append_nil]
    exact hm
  | false =>
    refine List.pairwise_append.mpr ⟨hm, List.pairwise_singleton .., fun k hk l hl => ?_⟩
    rw [List.mem_singleton.mp hl, Value.sameValueZero_comm, Value.sameValueZero_normalizeKey,
      Value.sameValueZero_comm]
    exact ne_of_not_contains hkey hk

theorem Distinct.erase {m : MapData} (hm : m.Distinct) (key : Value) : (m.erase key).Distinct := by
  unfold Distinct
  rw [hm.keys_erase key]
  exact hm.filter _

/-- A key that is there finds the value beside it. -/
theorem Distinct.find?_of_mem {m : MapData} (hm : m.Distinct) {e : Value × Value} (he : e ∈ m.entries) :
    m.find? e.1 = some e.2 := by
  obtain ⟨entries⟩ := m
  induction entries with
  | nil => cases he
  | cons first rest ih =>
    obtain ⟨hfirst, hrest⟩ := List.pairwise_cons.mp hm
    rw [find?, findEntry?, List.find?_cons]
    cases he with
    | head => rw [Value.sameValueZero_self, Option.map_some]
    | tail _ hin =>
      rw [hfirst e.1 (List.mem_map_of_mem hin)]
      exact ih hrest hin

theorem Distinct.values_eq {m : MapData} (hm : m.Distinct) : m.values.map some = m.keys.map m.find? := by
  rw [values, keys, List.map_map, List.map_map]
  exact List.map_congr_left fun e he => (hm.find?_of_mem he).symm

theorem entries_eq_zip (m : MapData) : m.entries = m.keys.zip m.values := by
  rw [keys, values, List.zip_map']
  exact (List.map_id _).symm

/-! ## Appending to a history -/

section History

variable (history : List Operation) (op : Operation)

theorem lastWrite_concat (key : Value) :
    lastWrite (history ++ [op]) key = if op.writes key then op.written else lastWrite history key := by
  rw [lastWrite, List.reverse_append, List.reverse_singleton, List.singleton_append, List.find?_cons]
  cases op.writes key <;> rfl

theorem Operation.deletes_normalizeKey (key : Value) : op.deletes key.normalizeKey = op.deletes key := by
  cases op with
  | delete k =>
    show k.sameValueZero _ = k.sameValueZero _
    rw [Value.sameValueZero_comm, Value.sameValueZero_normalizeKey, Value.sameValueZero_comm]
  | _ => rfl

/-- What was founded earlier stays unless it is deleted now. -/
theorem foundedAt_concat {i : Nat} (hi : i < history.length) :
    foundedAt (history ++ [op]) i = (foundedAt history i).filter fun key => !op.deletes key := by
  have htake : (history ++ [op]).take i = history.take i := List.take_append_of_le_length (Nat.le_of_lt hi)
  have hdrop : (history ++ [op]).drop (i + 1) = history.drop (i + 1) ++ [op] := List.drop_append_of_le_length hi
  unfold foundedAt
  rw [List.getElem?_append_left hi, htake, hdrop]
  split
  · next key v _ =>
    rw [List.any_append, List.any_cons, List.any_nil, Bool.or_false, Bool.not_or, ← Bool.and_assoc]
    split
    · next hboth =>
      obtain ⟨hthere, hdel⟩ := Bool.and_eq_true_iff.mp hboth
      rw [if_pos hthere, Option.filter_some, Operation.deletes_normalizeKey, if_pos hdel]
    · next hboth =>
      split
      · next hthere =>
        rw [hthere, Bool.true_and] at hboth
        rw [Option.filter_some, Operation.deletes_normalizeKey, if_neg hboth]
      · rfl
  · rfl

/-- The keys that an operation brings in after a history. -/
def Operation.founded (before : List Operation) : Operation → List Value
  | .set key _ => if (lastWrite before key).isSome then [] else [key.normalizeKey]
  | .delete _ | .has _ | .get _ => []

theorem liveKeys_concat :
    liveKeys (history ++ [op]) = (liveKeys history).filter (fun key => !op.deletes key) ++ op.founded history := by
  have hlast : (foundedAt (history ++ [op]) history.length).toList = op.founded history := by
    unfold foundedAt
    rw [List.getElem?_concat_length, List.take_left, List.drop_eq_nil_of_le (by simp)]
    cases op with
    | set key v =>
      simp only [Operation.founded]
      cases lastWrite history key <;> rfl
    | _ => rfl
  rw [liveKeys, List.length_append, List.length_singleton, List.range_succ, List.filterMap_append, liveKeys,
    List.filter_filterMap, List.filterMap_congr (fun i hi => foundedAt_concat history op (List.mem_range.mp hi)),
    ← hlast]
  cases hat : foundedAt (history ++ [op]) history.length <;> simp [hat]

end History

/-! ## Runs of a map -/

/-- What a step keeps: the map holds what the history says. -/
structure Follows (history : List Operation) (m : MapData) : Prop where
  distinct : m.Distinct
  get : ∀ key, m.find? key = lastWrite history key
  keys : m.keys = liveKeys history

namespace Follows

variable {history : List Operation} {m : MapData}

theorem empty : Follows [] .empty := ⟨List.Pairwise.nil, fun _ => rfl, rfl⟩

theorem has (hm : Follows history m) (key : Value) : m.contains key = (lastWrite history key).isSome := by
  rw [contains_eq, hm.get key]

theorem answer (hm : Follows history m) (op : Operation) : (m.perform op).1 = op.answer history := by
  cases op with
  | set key v => rfl
  | delete key =>
    show Answer.flag (m.delete key).1 = _
    rw [delete_eq, hm.has key]
    rfl
  | has key =>
    show Answer.flag (m.contains key) = _
    rw [hm.has key]
    rfl
  | get key =>
    show Answer.value ((m.find? key).getD .undefined) = _
    rw [hm.get key]
    rfl

/-- Asking changes nothing and writes nothing. -/
theorem of_asked (hm : Follows history m) {op : Operation} (hwrites : ∀ key, op.writes key = false)
    (hdeletes : ∀ key, op.deletes key = false) (hfounded : op.founded history = []) :
    Follows (history ++ [op]) m where
  distinct := hm.distinct
  get key := by rw [lastWrite_concat, hwrites key, if_neg Bool.false_ne_true, hm.get key]
  keys := by simp [liveKeys_concat, hdeletes, hfounded, hm.keys]

theorem insert (hm : Follows history m) (key v : Value) :
    Follows (history ++ [.set key v]) (m.insert key v) where
  distinct := hm.distinct.insert key v
  get k := by
    rw [find?_insert, lastWrite_concat, hm.get k]
    rfl
  keys := by
    rw [keys_insert, liveKeys_concat, hm.has key, hm.keys]
    simp [Operation.deletes, Operation.founded]

theorem delete (hm : Follows history m) (key : Value) :
    Follows (history ++ [.delete key]) (m.delete key).2 := by
  rw [delete_eq]
  exact {
    distinct := hm.distinct.erase key
    get := fun k => by
      rw [hm.distinct.find?_erase, lastWrite_concat, hm.get k]
      rfl
    keys := by
      rw [hm.distinct.keys_erase, liveKeys_concat, hm.keys]
      simp [Operation.deletes, Operation.founded, Value.sameValueZero_comm key] }

theorem perform (hm : Follows history m) (op : Operation) :
    Follows (history ++ [op]) (m.perform op).2 := by
  cases op with
  | set key v => exact hm.insert key v
  | delete key => exact hm.delete key
  | has key => exact hm.of_asked (fun _ => rfl) (fun _ => rfl) rfl
  | get key => exact hm.of_asked (fun _ => rfl) (fun _ => rfl) rfl

theorem run (ops : List Operation) (hm : Follows history m) : Follows (history ++ ops) (m.run ops).2 := by
  induction ops generalizing history m with
  | nil => simpa [MapData.run] using hm
  | cons op rest ih => simpa [MapData.run] using ih (hm.perform op)

theorem answers (ops : List Operation) (hm : Follows history m) (i : Nat) :
    (m.run ops).1[i]? = ops[i]?.map (·.answer (history ++ ops.take i)) := by
  induction ops generalizing history m i with
  | nil => rfl
  | cons op rest ih =>
    cases i with
    | zero => simpa [MapData.run] using hm.answer op
    | succ i => simpa [MapData.run] using ih (hm.perform op) i

end Follows

theorem length_run (m : MapData) (ops : List Operation) : (m.run ops).1.length = ops.length := by
  induction ops generalizing m with
  | nil => rfl
  | cons op rest ih => simpa [run] using ih (m.perform op).2

theorem negZero_notMem_liveKeys (history : List Operation) : .number .negZero ∉ liveKeys history := by
  intro hmem
  obtain ⟨i, -, hi⟩ := List.mem_filterMap.mp hmem
  unfold foundedAt at hi
  split at hi
  · split at hi
    · next key _ _ _ => exact key.normalizeKey_ne_negZero (Option.some.inj hi)
    · cases hi
  · cases hi

theorem run_observes (ops : List Operation) :
    Observes ops (empty.run ops).1 (empty.run ops).2 := by
  have hm : Follows ops (empty.run ops).2 := Follows.empty.run ops
  have hanswers := Follows.empty.answers ops
  generalize (empty.run ops).2 = m at hm
  exact {
    answered := empty.length_run ops
    answer := hanswers
    has := hm.has
    get := hm.get
    distinct := hm.distinct
    noNegZero := hm.keys ▸ negZero_notMem_liveKeys ops
    keys := hm.keys
    values := by rw [hm.distinct.values_eq, hm.keys, funext hm.get]
    entries := m.entries_eq_zip
    size := by rw [← hm.keys, keys, List.length_map, size]
    overwrite := fun key v hthere => by rw [keys_insert, hm.has key, hthere, if_pos rfl, List.append_nil]
    readd := fun key v => by
      have hgone : (m.erase key).contains key = false := by
        rw [contains_eq, hm.distinct.find?_erase, Value.sameValueZero_self, if_pos rfl, Option.isSome_none]
      rw [delete_eq, keys_insert, hgone, hm.distinct.keys_erase, if_neg Bool.false_ne_true] }

end MapData

/-! ## Sets -/

namespace SetData

inductive Operation where
  | add (v : Value)
  | has (v : Value)
  deriving DecidableEq, Repr

/-- Performs one operation. -/
def perform (s : SetData) : Operation → Answer × SetData
  | .add v => (.done, s.insert v)
  | .has v => (.flag (s.contains v), s)

/-- Performs operations one after the other. -/
def run (s : SetData) : List Operation → List Answer × SetData
  | [] => ([], s)
  | op :: rest =>
    let (answer, next) := s.perform op
    let (answers, last) := next.run rest
    (answer :: answers, last)

/-- The values that a history adds. -/
def added (history : List Operation) : List Value :=
  history.filterMap fun
    | .add v => some v
    | .has _ => none

/-- The answer of an operation, from what happened before. -/
def Operation.answer (before : List Operation) : Operation → Answer
  | .add _ => .done
  | .has v => .flag ((added before).any (·.sameValueZero v))

/-- The first of the values that are the same, in the form in which they are stored. -/
def firsts (vs : List Value) : List Value := (vs.eraseDupsBy Value.sameValueZero).map Value.normalizeKey

/-- The values of a set are pairwise different. -/
def Distinct (s : SetData) : Prop := s.values.Pairwise fun v w => v.sameValueZero w = false

/-- A set, and the answers given on the way to it, are those that the history tells of. -/
structure Observes (history : List Operation) (answers : List Answer) (s : SetData) : Prop where
  answered : answers.length = history.length
  answer : ∀ i : Nat, answers[i]? = history[i]?.map (·.answer (history.take i))
  has : ∀ v, s.contains v = (added history).any (·.sameValueZero v)
  distinct : s.Distinct
  noNegZero : .number .negZero ∉ s.values
  values : s.values = firsts (added history)
  size : s.size = (firsts (added history)).length
  again : ∀ v, (added history).any (·.sameValueZero v) → s.insert v = s

theorem contains_insert (s : SetData) (v w : Value) :
    (s.insert v).contains w = (s.contains w || v.sameValueZero w) := by
  unfold insert
  split
  · next hv =>
    cases hvw : v.sameValueZero w with
    | true =>
      obtain ⟨x, hx, hxv⟩ := List.any_eq_true.mp hv
      have hw : s.contains w = true := List.any_eq_true.mpr ⟨x, hx, Value.sameValueZero_trans hxv hvw⟩
      rw [hw, Bool.or_true]
    | false => rw [Bool.or_false]
  · simp [contains, Value.sameValueZero_normalizeKey]

/-- Adding values one after the other adds the first of those that are not there. -/
theorem values_foldl_insert (s : SetData) (vs : List Value) :
    (vs.foldl insert s).values = s.values ++ firsts (vs.filter fun v => !s.contains v) := by
  induction vs generalizing s with
  | nil => simp [firsts]
  | cons v rest ih =>
    rw [List.foldl_cons, ih, List.filter_cons]
    cases hv : s.contains v with
    | true => simp [insert, hv]
    | false =>
      have hrest : (rest.filter fun w => !(s.insert v).contains w) =
          (rest.filter fun w => !s.contains w).filter fun w => decide (w.sameValueZero v = false) := by
        rw [List.filter_filter]
        refine List.filter_congr fun w _ => ?_
        rw [contains_insert, Bool.not_or, Bool.and_comm, Value.sameValueZero_comm v w]
        cases w.sameValueZero v <;> rfl
      rw [hrest]
      simp [firsts, List.eraseDupsBy_cons, insert, hv]

theorem values_foldl_insert_empty (vs : List Value) : (vs.foldl insert empty).values = firsts vs := by
  rw [values_foldl_insert]
  simp [empty, contains]

theorem contains_foldl_insert (s : SetData) (vs : List Value) (w : Value) :
    (vs.foldl insert s).contains w = (s.contains w || vs.any (·.sameValueZero w)) := by
  induction vs generalizing s with
  | nil => simp
  | cons v rest ih => rw [List.foldl_cons, ih, contains_insert, List.any_cons, Bool.or_assoc]

theorem Distinct.insert {s : SetData} (hs : s.Distinct) (v : Value) : (s.insert v).Distinct := by
  unfold SetData.insert
  split
  · exact hs
  · next hv =>
    refine List.pairwise_append.mpr ⟨hs, List.pairwise_singleton .., fun x hx y hy => ?_⟩
    rw [List.mem_singleton.mp hy, Value.sameValueZero_comm, Value.sameValueZero_normalizeKey,
      Value.sameValueZero_comm]
    exact Bool.eq_false_iff.mpr fun hxv => hv (List.any_eq_true.mpr ⟨x, hx, hxv⟩)

theorem Distinct.foldl_insert {s : SetData} (hs : s.Distinct) (vs : List Value) :
    (vs.foldl SetData.insert s).Distinct := by
  induction vs generalizing s with
  | nil => exact hs
  | cons v rest ih => exact ih (hs.insert v)

/-! ## Runs of a set -/

theorem length_run (s : SetData) (ops : List Operation) : (s.run ops).1.length = ops.length := by
  induction ops generalizing s with
  | nil => rfl
  | cons op rest ih => simpa [run] using ih (s.perform op).2

theorem run_eq_foldl (s : SetData) (ops : List Operation) : (s.run ops).2 = (added ops).foldl insert s := by
  induction ops generalizing s with
  | nil => rfl
  | cons op rest ih =>
    cases op with
    | add v => exact ih (s.insert v)
    | has v => exact ih s

/-- The answers of a run from a set that holds what was added before. -/
theorem answers_run {before : List Operation} {s : SetData} (ops : List Operation)
    (hs : ∀ v, s.contains v = (added before).any (·.sameValueZero v)) (i : Nat) :
    (s.run ops).1[i]? = ops[i]?.map (·.answer (before ++ ops.take i)) := by
  induction ops generalizing before s i with
  | nil => rfl
  | cons op rest ih =>
    cases i with
    | zero => cases op <;> simp [run, perform, Operation.answer, hs]
    | succ i =>
      have hnext : ∀ v, (s.perform op).2.contains v = (added (before ++ [op])).any (·.sameValueZero v) := by
        intro v
        cases op with
        | add w => simp [perform, contains_insert, hs, added]
        | has w => simp [perform, hs, added]
      simpa [run] using ih hnext i

theorem run_observes (ops : List Operation) : Observes ops (empty.run ops).1 (empty.run ops).2 := by
  have hvalues : (empty.run ops).2.values = firsts (added ops) := by
    rw [run_eq_foldl, values_foldl_insert_empty]
  have hhas : ∀ v, (empty.run ops).2.contains v = (added ops).any (·.sameValueZero v) := fun v => by
    rw [run_eq_foldl, contains_foldl_insert]
    rfl
  have hstart : ∀ v, empty.contains v = (added []).any (·.sameValueZero v) := fun _ => rfl
  exact {
    answered := empty.length_run ops
    answer := answers_run ops hstart
    has := hhas
    distinct := by
      rw [run_eq_foldl]
      exact Distinct.foldl_insert List.Pairwise.nil _
    noNegZero := fun hmem => by
      rw [hvalues] at hmem
      obtain ⟨v, -, hv⟩ := List.mem_map.mp hmem
      exact v.normalizeKey_ne_negZero hv
    values := hvalues
    size := congrArg List.length hvalues
    again := fun v hv => by rw [insert, hhas v, if_pos hv] }

end SetData

/-- Every run of operations on an empty map, and every one on an empty set, answers what its history says and leaves
what the history says: keys that are pairwise different and in the order in which they came, each with the value that
was last written. -/
theorem collections_observe_history (onMap : List MapData.Operation) (onSet : List SetData.Operation) :
    MapData.Observes onMap (MapData.empty.run onMap).1 (MapData.empty.run onMap).2 ∧
      SetData.Observes onSet (SetData.empty.run onSet).1 (SetData.empty.run onSet).2 :=
  ⟨MapData.run_observes onMap, SetData.run_observes onSet⟩

end IterationEngine
