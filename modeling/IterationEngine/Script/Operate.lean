import IterationEngine.Script.Session

/-!
# Operations of scripts

What each operation of a script does: it evaluates its operands, performs commands and answers.

Operations that need an engine ask for the context before they look at any operand. An operand of the wrong kind
is reported by the name of its field.
-/

namespace IterationEngine.Script

/--
The answer of an operation. Values and completions can be kept in registers, and so can the result of a step and
the value of a slot, where undefined stands for nothing.
-/
inductive Answer where
  | value (v : Value)
  | completion (c : Completion)
  /-- The outcome of an iteration step. -/
  | stepped (result : Handle)
  /-- What an internal slot holds. -/
  | slot (held : Option Value)
  | data (d : Datum ObjectId)
  /-- An operand is of the wrong kind. -/
  | bad (field : String)
  | refused (error : EngineError)

namespace Answer

def done : Answer := .data (.boolean true)

def ofBool (b : Bool) : Answer := .data (.boolean b)

def ofHandle (h : Handle) : Answer := .value (.ofHandle h)

/-- The session with the answer kept in its register. -/
def keep (register : Option String) : Answer → Session → Session
  | .value v, s => s.keep register v
  | .stepped result, s => s.keep register (.ofHandle result)
  | .slot held, s => s.keep register (held.getD .undefined)
  | .completion c, s => s.keepCompletion register c
  | .data _, s | .bad _, s | .refused _, s => s

/-- The fields of the entry that reports the answer. -/
def fields (name : String) (heap : Heap) (a : Answer) : List (String × Datum ObjectId) :=
  ("op", .text name) ::
    match a with
    | .value v => [("r", ofValue heap v)]
    | .completion c => [("r", ofCompletion heap c)]
    | .stepped result =>
      [("r", .record [("exhausted", .boolean result.isNone), ("has_value", .boolean result.isSome),
        ("result", ofValue heap (.ofHandle result))])]
    | .slot held =>
      [("r", .record [("has", .boolean held.isSome), ("v", ofValue heap (held.getD .undefined))])]
    | .data d => [("r", d)]
    | .bad field => [("bad", .text field)]
    | .refused error => [("error", .text "logic_error"), ("message", .text error.message)]

end Answer

namespace Operation

variable (args : Arguments)

/-- An object, nothing if the expression is missing or no object. -/
def handle (e : Option Expr) : Play Handle :=
  match e with
  | some e => return (← e.eval args).object?
  | none => return none

/-- An object, or the intrinsic one if the expression is missing. -/
def handleOr (i : Intrinsic) (e : Option Expr) : Play Handle :=
  match e with
  | some e => return (← e.eval args).object?
  | none => return (← Play.context).intrinsic i

def evalAll : List Expr → Play (List Value)
  | [] => return []
  | e :: rest => do
    let v ← e.eval args
    let vs ← evalAll rest
    return v :: vs

def evalOption (e : Option Expr) : Play (Option Value) :=
  match e with
  | some e => return some (← e.eval args)
  | none => return none

def key (e : Expr) : Play String := do
  let h ← Play.heap
  return (← e.eval args).key h.objectText

/-- Goes on with an object; any other operand is bad. -/
def withObject (field : String) (e : Expr) (k : ObjectId → Play Answer) : Play Answer := do
  match ← e.eval args with
  | .object id => k id
  | _ => return .bad field

/-- Goes on with an object and the state it holds; an operand without it is bad. -/
def withState {α : Type} (field : String) (state? : Heap → ObjectId → Option α) (e : Expr)
    (k : ObjectId → α → Play Answer) : Play Answer :=
  withObject args field e fun id => do
    match state? (← Play.heap) id with
    | some a => k id a
    | none => return .bad field

/-- Goes on with what a name stands for; an unknown name is bad. -/
def withNamed {α : Type} (field : String) (named : Option α) (k : α → Play Answer) : Play Answer :=
  match named with
  | some a => k a
  | none => return .bad field

/-- The functions of the engine that a script can ask for. -/
def builtinNamed : String → Option Builtin
  | "list_next" => some .listNext
  | "map_keys" => some (.mapIterator .keys)
  | "map_values" => some (.mapIterator .values)
  | "map_entries" => some (.mapIterator .entries)
  | "set_values" => some (.setIterator .values)
  | "set_entries" => some (.setIterator .entries)
  | _ => none

/-- The kinds of error that a context raises by itself. -/
def raisable (name : String) : Option ErrorKind :=
  (ErrorKind.ofString? name).filter (· != .error)

/-- The answer of one command. -/
def performing (c : Command) (answer : c.Reply → Answer) : Play Answer := do
  return answer (← Play.perform c)

/-- Whether an operation goes without an initialized engine. -/
def isFree : Operation → Bool
  | .start | .shutdown | .isInitialized | .updateConfig _ | .getConfig | .memoryStatistics
  | .heapStatistics | .registerNothing | .evaluate _ | .inspect _ | .compare .. | .createSymbol _
  | .decideClose .. | .completion _ | .inspectCompletion _ | .completionEquals .. => true
  | _ => false

/--
Carries out an operation within a program. A program runs inside an engine life, which it can neither begin nor
end.
-/
def play : Operation → Play Answer
  -- life cycle
  | .start => return .data (.record [("ok", .boolean true), ("log", .text "")])
  | .shutdown => return .data (.record [("log", .text "")])
  | .isInitialized => return .ofBool (← Play.session).live
  | .updateConfig _ => return .refused .alreadyInitialized
  | .getConfig => return .data (ofConfig (← Play.session).config)
  | .memoryStatistics => return .data (.text ("Heap: " ++ (← Play.heap).statistics))
  | .heapStatistics => return .data (statistics (← Play.heap))
  | .registerNothing | .trackNothing => return .ofBool ((← Play.heap).register none).1.isNone
  -- context
  | .contextState => do
    let context ← Play.context
    return .data (ofContext (← Play.heap) context)
  | .setStrict on => performing (.setStrict on) fun _ => .done
  | .setMaxDepth limit => performing (.setMaxDepth limit) fun _ => .done
  | .setGlobal object => do performing (.setGlobal (← handle args object)) fun _ => .done
  | .raise v => do performing (.raise (← v.eval args)) fun _ => .done
  | .raiseError kind message =>
    withNamed "kind" (raisable kind) fun kind => performing (.raiseError kind message) fun _ => .done
  | .rethrow c => do performing (.rethrow (← c.eval args)) fun _ => .done
  | .clearPending => performing .clearPending fun _ => .done
  | .takePending => performing .takePending .completion
  | .registerBuiltin name object => do
    performing (.registerBuiltin name (← handle args object)) fun _ => .done
  | .builtin name => return .ofHandle ((← Play.context).builtin name)
  | .install part =>
    withNamed "which" (Intrinsics.Part.ofString? part) fun part => performing (.install part) fun _ => .done
  -- values
  | .evaluate v => return .value (← v.eval args)
  | .inspect v => do
    let v ← v.eval args
    return .data (Script.inspect (← Play.heap) v)
  | .compare a b => do
    let a ← a.eval args
    let b ← b.eval args
    return .data (Script.compare a b)
  | .createSymbol description =>
    performing (.createSymbol description) fun s =>
      .data (.record [("s", .text s.text), ("d", .text s.description)])
  | .errorInfo v => do
    let v ← v.eval args
    return .data (Script.errorInfo (← Play.heap) v)
  -- construction
  | .createObject prototype tag => do
    let prototype ← handleOr args .objectPrototype prototype
    withNamed "type" (tag.elim (some .ordinary) PlainTag.ofString?) fun tag =>
      performing (.createObject prototype tag []) fun id => .value (.object id)
  | .createWithSlots prototype slots => do
    let prototype ← handleOr args .objectPrototype prototype
    performing (.createObject prototype .ordinary slots) fun id => .value (.object id)
  | .createBuiltin which name =>
    withNamed "which" (builtinNamed which) fun b =>
      performing (.createFunction name 0 (some b)) fun id => .value (.object id)
  | .createError kind message =>
    withNamed "kind" (ErrorKind.ofString? kind) fun kind =>
      performing (.createError kind message) fun id => .value (.object id)
  | .createResult v done => do
    performing (.createResult (← v.eval args) done) fun id => .value (.object id)
  | .createListIterator list => do
    performing (.createListIterator (← evalAll args list)) fun id => .value (.object id)
  | .createUnbound list prototype => do
    let list ← match list with
      | some list => (do return some (← evalAll args list))
      | none => pure none
    let prototype ← handleOr args .iteratorPrototype prototype
    performing (.createUnbound prototype list) fun id => .value (.object id)
  | .createMap prototype => do
    performing (.createMap (← handleOr args .mapPrototype prototype)) fun id => .value (.object id)
  | .createSet prototype => do
    performing (.createSet (← handleOr args .setPrototype prototype)) fun id => .value (.object id)
  -- objects
  | .setProperty object k v a => withObject args "obj" object fun id => do
    let k ← key args k
    performing (.setProperty id k (← v.eval args) a) .ofBool
  | .defineAccessor object k getter setter a => withObject args "obj" object fun id => do
    let k ← key args k
    let getter ← handle args getter
    let setter ← handle args setter
    performing (.defineAccessor id k getter setter a) .ofBool
  | .setMethod object k v => withObject args "obj" object fun id => do
    let k ← key args k
    performing (.setMethod id k (← v.eval args)) fun _ => .done
  | .getProperty object k receiver => withObject args "obj" object fun id => do
    let k ← key args k
    let receiver ← evalOption args receiver
    performing (.get id k (receiver.getD (.object id))) .value
  | .getOwn object k => withState args "obj" Heap.get? object fun _ o => do
    return .value ((o.properties.find? (← key args k)).elim .undefined Property.value)
  | .has object k => withState args "obj" Heap.get? object fun id o => do
    let k ← key args k
    return .data (.record [("has", .boolean ((← Play.heap).lookup id k).isSome),
      ("own", .boolean (o.properties.contains k))])
  | .find object k => withObject args "obj" object fun id => do
    let k ← key args k
    let h ← Play.heap
    return .data ((h.lookup id k).elim .null (ofProperty h))
  | .keys object => withState args "obj" Heap.get? object fun _ o =>
    return .data (.list (o.properties.keys.map .text))
  | .properties v getter setter => do
    let v ← v.eval args
    let getter ← handle args getter
    let setter ← handle args setter
    let h ← Play.heap
    return .data (.list ([.data .undefined .all, .data v .all, .accessor getter setter .all, .data v .all].map
      (ofProperty h)))
  | .setPrototype object prototype => withObject args "obj" object fun id => do
    performing (.setPrototype id (← handle args (some prototype))) fun _ => .done
  | .setSlot object slot v => withObject args "obj" object fun id => do
    performing (.setSlot id slot (← v.eval args)) fun _ => .done
  | .getSlot object slot => withState args "obj" Heap.get? object fun _ o =>
    return .slot (o.slots.find? slot)
  | .dump object => withState args "obj" Heap.get? object fun id o => do
    return .data (ofObject (← Play.heap) id o)
  -- access and calls
  | .getFrom object k => do
    let object ← handle args object
    performing (.getFrom object (← key args k)) .value
  | .getV v k => do
    let v ← v.eval args
    performing (.getV v (← key args k)) .value
  | .getMethod v k => do
    let v ← v.eval args
    performing (.getMethod v (← key args k)) .ofHandle
  | .call callable receiver list => do
    let callable ← callable.eval args
    let receiver ← evalOption args receiver
    performing (.call callable (receiver.getD .undefined) (← evalAll args list)) .value
  | .callFunction function receiver list => withState args "fn" Heap.code? function fun id _ => do
    let receiver ← evalOption args receiver
    performing (.call (.object id) (receiver.getD .undefined) (← evalAll args list)) .value
  | .invoke v k list => do
    let v ← v.eval args
    let k ← key args k
    performing (.invoke v k (← evalAll args list)) .value
  -- iteration
  | .iterator v method => do
    let v ← evalOption args v
    performing (.iterator (v.getD .undefined) (← evalOption args method)) .ofHandle
  | .next it argument => do
    let it ← handle args it
    performing (.next it (← evalOption args argument)) .ofHandle
  | .isDone result => withObject args "result" result fun id => performing (.isDone id) .ofBool
  | .value result => withObject args "result" result fun id => performing (.value id) .value
  | .step it => do performing (.step (← handle args it)) .stepped
  | .decideClose c inner => do
    let c ← c.eval args
    let inner ← inner.eval args
    return .data (.text (Iterator.CloseDecision.decide c inner).name)
  | .close it c => do
    let it ← handle args it
    performing (.close it (← c.eval args)) .completion
  | .bindNext it function => withState args "iterator" Heap.listCursor? it fun id _ => do
    let function ← function.eval args
    performing (.bindNext id ((← Play.heap).function? function)) fun _ => .done
  | .createMapIterator source kind => do
    let source ← source.eval args
    withNamed "kind" (IterationKind.ofString? kind) fun kind =>
      performing (.createMapIterator source kind) .ofHandle
  | .createSetIterator source kind => do
    let source ← source.eval args
    withNamed "kind" (IterationKind.ofString? kind) fun kind =>
      performing (.createSetIterator source kind) .ofHandle
  | .isIterable v => do performing (.isIterable (← v.eval args)) .ofBool
  | .toList v method => do
    let v ← v.eval args
    let list ← Play.perform (.toList v (← evalOption args method))
    return .data (ofValues (← Play.heap) list)
  -- collections
  | .mapInsert map k v => withState args "map" Heap.mapData? map fun id data => do
    let k ← k.eval args
    let v ← v.eval args
    performing (.insertEntry id k v) fun _ => .data (ofNat (data.insert k v).size)
  | .mapFind map k => withState args "map" Heap.mapData? map fun _ data => do
    return .value ((data.find? (← k.eval args)).getD .undefined)
  | .mapContains map k => withState args "map" Heap.mapData? map fun _ data => do
    return .ofBool (data.contains (← k.eval args))
  | .mapErase map k => withState args "map" Heap.mapData? map fun id data => do
    let k ← k.eval args
    performing (.eraseEntry id k) fun deleted => .data (.record [("deleted", .boolean deleted),
      ("size", ofNat (data.delete k).2.size)])
  | .setInsert set v => withState args "set" Heap.setData? set fun id data => do
    let v ← v.eval args
    performing (.insertValue id v) fun _ => .data (ofNat (data.insert v).size)
  | .setContains set v => withState args "set" Heap.setData? set fun _ data => do
    return .ofBool (data.contains (← v.eval args))
  | .toMap v => do performing (.toMap (← v.eval args)) .ofHandle
  | .toSet v => do performing (.toSet (← v.eval args)) .ofHandle
  -- completions
  | .completion c => return .completion (← c.eval args)
  | .inspectCompletion c => do
    let c ← c.eval args
    return .data (Script.inspectCompletion (← Play.heap) c)
  | .completionEquals a b => do
    let a ← a.eval args
    let b ← b.eval args
    return .ofBool (a.equals b)

end Operation

end IterationEngine.Script
