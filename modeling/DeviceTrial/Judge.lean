import DeviceTrial.Log
import DeviceTrial.Paths
import DeviceTrial.Status

namespace DeviceTrial

inductive Verdict where
  | uninitialized
  | initialized
  | ok
  | unexpected
  | timeout
  | unreachable
  deriving DecidableEq, Repr

def Verdict.describe : Verdict → String
  | uninitialized => "Uninitialized"
  | initialized => "Initialized"
  | ok => "Ok"
  | unexpected => "UnexpectedResponse"
  | timeout => "Timeout"
  | unreachable => "Unreachable"

namespace CommandPath

/-- A path with a reserved id stands for nothing in particular. -/
def isWildcard (p : CommandPath) : Bool :=
  p.endpoint == 0xFFFF || p.cluster == 0xFFFFFFFF || p.id == 0xFFFFFFFF

def subject (p : CommandPath) : String :=
  (if p.isCommand then "command " else "attribute ") ++ Numeral.marked 4 p.id.toNat ++
    " of cluster " ++ Numeral.marked 4 p.cluster.toNat ++ " on endpoint " ++
    Numeral.decimal p.endpoint.toNat

/-- The statuses with which every command, or every write, may be answered. -/
def usual (p : CommandPath) : List Status :=
  if p.isCommand then [.success, .failure, .invalidCommand, .constraintError]
  else [.success, .failure]

end CommandPath

structure Rule where
  path : CommandPath
  accepted : SortedSet Status

namespace Rule

def new (path : CommandPath) (extras : List Status) : Rule := ⟨path, .ofList (path.usual ++ extras)⟩

/-- Stands for the rule that is missing, and accepts nothing. -/
def missing : Rule := ⟨⟨.write, 0xFFFF, 0xFFFFFFFF, 0xFFFFFFFF⟩, .empty⟩

def accepts (r : Rule) (s : Status) : Bool := r.accepted.contains s

def isMissing (r : Rule) : Bool := r.path = missing.path

end Rule

structure DuplicateRule where
  path : CommandPath
  deriving DecidableEq, Repr

def DuplicateRule.message (f : DuplicateRule) : String :=
  "Duplicate oracle rule for " ++ f.path.subject

/-- What a device answered with. -/
inductive Outcome where
  | plain (status : Status)
  /-- The cluster adds a code of its own. Such an answer is not judged. -/
  | refined (status : Status) (code : UInt8)
  deriving DecidableEq, Repr

structure Tally where
  consumed : Nat := 0
  ok : Nat := 0
  unexpected : Nat := 0
  timeouts : Nat := 0
  unreachable : Nat := 0
  refined : Nat := 0
  deriving DecidableEq, Repr

/-- An answer held against a rule. -/
structure Ruling where
  rule : Rule
  matched : Bool
  verdict : Verdict

/-- The silence is counted without end, where a counter of 32 bits would turn over: what is said of
a judge is about fewer than `2 ^ 32` timeouts in a row. -/
structure Judge where
  current : Verdict
  last : Verdict
  rules : SortedMap CommandPath Rule
  /-- How many timeouts there were since the latest answer. -/
  silence : Nat
  /-- The silence at which a device is unreachable. -/
  patience : Nat
  /-- The latest answer that was held against a rule. -/
  ruling : Option Ruling
  tally : Tally

namespace Judge

/-- A judge whose patience is at least one timeout. -/
def new (patience : Nat) : Judge :=
  ⟨.initialized, .uninitialized, .empty, 0, max patience 1, none, {}⟩

def defaultPatience : Nat := 2

/-- Adds a rule that accepts the usual statuses and some extra ones. A wildcard is passed over. -/
def addRule (j : Judge) (path : CommandPath) (extras : List Status) :
    Told (Except DuplicateRule Judge) := do
  if path.isWildcard then
    tell .debug "skipping oracle rule with a wildcard id" [("key", path.subject)]
    return .ok j
  else if j.rules.contains path then return .error ⟨path⟩
  else return .ok { j with rules := j.rules.insert path (.new path extras) }

/-- Adds rules one by one, up to the first that is there already. -/
def addRules (j : Judge) : List (CommandPath × List Status) → Told (Judge × Option DuplicateRule)
  | [] => return (j, none)
  | (path, extras) :: rest => do
    match ← j.addRule path extras with
    | .ok j => addRules j rest
    | .error fault => return (j, some fault)

/-- Adds a rule for each command and each attribute of a cluster, and counts those added. -/
def addScope (j : Judge) (endpoint : EndpointId) (cluster : ClusterId) (commands : List CommandId)
    (attributes : List AttributeId) (extras : List Status) :
    Told (Judge × Except DuplicateRule Nat) := do
  let rules := commands.map (fun id => (⟨.invoke, endpoint, cluster, id⟩, [])) ++
    attributes.map (fun id => (⟨.write, endpoint, cluster, id⟩, extras))
  let (after, fault) ← j.addRules rules
  match fault with
  | none => return (after, .ok (after.rules.size - j.rules.size))
  | some fault => return (after, .error fault)

def ruleFor (j : Judge) (path : CommandPath) : Rule := (j.rules.get? path).getD .missing

def consumeTimeout (j : Judge) : Judge :=
  let silence := j.silence + 1
  if j.patience ≤ silence then
    { j with
      silence, current := .unreachable
      tally := { j.tally with unreachable := j.tally.unreachable + 1 } }
  else
    { j with
      silence, current := .timeout
      tally := { j.tally with timeouts := j.tally.timeouts + 1 } }

def consumeAnswer (j : Judge) (path : CommandPath) (status : Status) : Judge :=
  let rule := j.ruleFor path
  if rule.accepts status then
    { j with
      silence := 0, current := .ok, ruling := some ⟨rule, true, .ok⟩
      tally := { j.tally with ok := j.tally.ok + 1 } }
  else
    { j with
      silence := 0, current := .unexpected, ruling := some ⟨rule, false, .unexpected⟩
      tally := { j.tally with unexpected := j.tally.unexpected + 1 } }

/-- Takes an answer. The verdict is the current one of the judge that results. -/
def consume (j : Judge) (path : CommandPath) (outcome : Outcome) : Told Judge := do
  let j := { j with last := j.current, tally := { j.tally with consumed := j.tally.consumed + 1 } }
  match outcome with
  | .refined status code =>
    tell .debug "cluster-specific status left unclassified"
      [("status", status.describe), ("cluster_status", Numeral.decimal code.toNat)]
    return { j with tally := { j.tally with refined := j.tally.refined + 1 } }
  | .plain status =>
    if status = .timeout then return j.consumeTimeout
    else
      let j := j.consumeAnswer path status
      tell .debug "oracle consumed status"
        [("key", path.subject), ("status", status.describe), ("verdict", j.current.describe)]
      return j

end Judge

end DeviceTrial
