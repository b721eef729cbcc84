import PeerRpc.Service

/-!
# PeerRpc.Service.Kit -- services that try an endpoint out

`Service.kit` has a method for everything that a handler can do: answer, fail, break down, wait for
time, for a gate, for ever or for its caller to cancel, and call back. `Service.bare` is a service
without methods of its own: it answers every call with what it was called with.
-/

namespace PeerRpc

namespace Kit

/-- A text as data. -/
def text (s : String) : Datum := .value (.string s)

/-- A truth value as data. -/
def truth (b : Bool) : Datum := .value (.bool b)

/-- An object as data. -/
def record (fields : List (String × Datum)) : Datum :=
  .map (fields.map fun (k, d) => (text k, d))

/-- The number of times a natural number stands for. -/
def count {k : IntKind} (n : k.Range) : Nat := n.1.toNat

/-- The number 0 inside arrays, `depth` deep in all. -/
def tree (depth : Nat) : Value :=
  (depth - 1).fold (fun _ _ v => .array [v]) (.int default)

/-- The text of a truth value. -/
def word (b : Bool) : String := if b then "true" else "false"

/-! ## Failures described by arguments -/

/-- The text under a key of an object; empty, if there is none. -/
def textAt (fields : Keyed Value) (key : String) : String :=
  match Keyed.get? fields key with
  | some (.string s) => s
  | _ => ""

/-- The texts under a key of an object. -/
def textsAt (fields : Keyed Value) (key : String) : List String :=
  match Keyed.get? fields key with
  | some (.array items) => items.filterMap fun v =>
    match v with
    | .string s => some s
    | _ => none
  | _ => []

/-- The failure that an object describes by its kind, its text, its details and its causes. -/
def failure? (v : Value) : Option HandlerError :=
  match v with
  | .object fields =>
    let s := textAt fields "text"
    match textAt fields "kind" with
    | "NoSuchMethod" => some (.noSuchMethod s)
    | "InvalidArguments" => some (.invalidArguments s)
    | "failed" => some (.plain s)
    | "Failed" => some (.failed s (Keyed.get? fields "details"))
    | "anyhow" =>
      match textsAt fields "chain" with
      | cause :: contexts => some (.chain cause contexts)
      | [] => none
    | _ => none
  | _ => none

/-! ## Services described by arguments -/

/-- The identifier that a value describes: a path in the table that every host starts from, or an
object with an id, a side and a name. -/
def identifier? (v : Value) : Option Identifier :=
  match v with
  | .string path => IdentifierTable.wellKnown.find? path
  | .object fields =>
    match Keyed.get? fields "id", textAt fields "side" with
    | some (.int n), "main" => some ⟨⟨.ofNat n.1.toNat⟩, .main, textAt fields "name"⟩
    | some (.int n), "ext" => some ⟨⟨.ofNat n.1.toNat⟩, .ext, textAt fields "name"⟩
    | _, _ => none
  | _ => none

/-! ## Methods -/

/-- What the context of a call says, and whether the run has been told to stop. -/
def describe (c : CallContext) (stopped : Bool) : Datum :=
  record [
    ("request_id", (c.request.map fun id => Datum.int id.val.toNat).getD .none),
    ("proxy_id", .int c.proxy.val.toNat),
    ("method", text c.method),
    ("notification", truth c.isNotification),
    ("cancelled", truth stopped)]

/-- The sum of two arguments in 64 bits. -/
def sum : Behaviour := fun _ args =>
  .withArgument (.int .int64) args 0 fun a =>
    .withArgument (.int .int64) args 1 fun b =>
      .respond (.int ((a.1 + b.1).bmod (2 ^ 64)))

/-- Fails as the first argument says. -/
def failing : Behaviour := .ofArgument .value fun v =>
  .fail ((failure? v).getD (.invalidArguments "argument 0: not a failure"))

/-- Waits for a gate. -/
def gated : Behaviour := .ofArgument .string fun (name : String) =>
  .gate name <| .askStopped fun stopped => .respond (.list [text name, truth stopped])

/-- Waits for a time. -/
def sleeping (next : Activity) : Behaviour := .ofArgument (.int .word64) fun n =>
  .sleep (count n) next

/-- Logs whether the run has been told to stop, and answers. -/
def logStopped (name answer : String) : Activity :=
  .askStopped fun stopped => .log (name ++ " cancelled=" ++ word stopped) (.respond (text answer))

/-- Passes a call on to the service and method that its first two arguments name. -/
def relay : Behaviour := fun _ args =>
  .takeHandle fun held =>
    if held then
      .withArgument .value args 0 fun v =>
        match identifier? v with
        | none => .fail (.invalidArguments "argument 0: not an identifier")
        | some target =>
          .withArgument .string args 1 fun method =>
            .call target method (args.drop 2) fun result =>
              match result with
              | .ok v => .reply v
              | .error e => .fail (.plain ("relay: " ++ e.text))
    else .fail (.plain "no handle")

/-- The methods that run to completion. -/
def methods : List (String × Behaviour) := [
  ("echo", .ofArgument .value .reply),
  ("args", fun _ args => .reply (.array args)),
  ("add", sum),
  ("resize", .ofArgument (.int .word16) fun n => .respond (.int n.1)),
  ("opt", .ofArgument (.option .string) fun (o : Option String) =>
    .respond ((o.map text).getD .none)),
  ("bytes", .ofArgument .string fun (s : String) => .respond (.int s.utf8ByteSize)),
  ("ctx", fun c _ => .askStopped fun stopped => .respond (describe c stopped)),
  ("fail", failing),
  ("panic_str", fun _ _ => .panic "literal boom"),
  ("panic_string", .ofArgument .string fun (s : String) => .panic ("boom: " ++ s)),
  ("panic_any", fun _ _ => .panic "unknown panic"),
  ("panic_sync", fun _ _ => .panic "before the future"),
  ("nan", fun _ _ => .respond (.float ⟨0x7ff8000000000000⟩)),
  ("bad_reply", fun _ _ => .respond (.map [(.list [], .unit)])),
  ("tree", .ofArgument (.int .word64) fun n => .reply (tree (count n))),
  ("deep_error", .ofArgument (.int .word64) fun n =>
    .fail (.failed "deep" (some (tree (count n))))),
  ("content", .ofArgument (.int .word64) fun n =>
    .reply (.string (String.ofList (List.replicate (count n) 'x')))),
  ("record", fun c args => .withArgument .string args 0 fun (s : String) =>
    .log ("record " ++ s ++ " notification=" ++ word c.isNotification) (.respond .unit)),
  ("nap", sleeping (logStopped "nap" "napped")),
  ("stubborn", fun _ _ => .untilStopped (logStopped "stubborn" "finished anyway")),
  ("gated", gated),
  ("relay", relay)]

/-- The methods that are aborted when their caller cancels. -/
def cancellableMethods : List (String × Behaviour) := [
  ("hang", fun _ _ => .replyStopped (.string "hang saw cancel")),
  ("never", fun _ _ => .forever),
  ("sleep", sleeping (.respond (text "slept"))),
  ("gated_c", gated)]

/-- The methods of the kit. -/
def router : Router Behaviour :=
  .ofList (methods.map (fun (name, b) => (name, ⟨b, false⟩)) ++
    cancellableMethods.map fun (name, b) => (name, ⟨b, true⟩))

/-- What the bare service does. -/
def bare : Behaviour := fun c args =>
  let answer := Value.array [.string c.method, .array args]
  if c.method = "hang" then .replyStopped answer else .reply answer

end Kit

namespace Service

/-- The service with a method for everything. -/
def kit (label : String) : Service := ⟨label, .methods Kit.router⟩

/-- The service without methods of its own. -/
def bare (label : String) : Service := ⟨label, .whole Kit.bare⟩

end Service

end PeerRpc
