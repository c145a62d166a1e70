import TriGraph.Graphs.Document
import TriGraph.Knowledge.Answer
import TriGraph.Knowledge.Traversal
import TriGraph.Seed.Notices
import TriGraph.Seed.Text
import TriGraph.Document.Text

/-!
# The command line

A command line names one request to a trinity, which is built from a seed. Help and version are given as soon as they
are asked for, unless a fault comes first. Notices go to the error output before the error that ends a run.
-/

namespace TriGraph.CommandLine

/-! ## Requests -/

inductive Request where
  | query (text : String) (context : Option String)
  | traverse (graph node : String) (plan : List TraversalStep)
  | dump
  | applicable (concept context : String)
  | relevant (entity context : String)

structure Invocation where
  seed : Option String
  verbose : Bool
  request : Request

inductive Stop where
  | help
  | version
  | usage
deriving DecidableEq

/-! ## Words -/

structure Grammar where
  options : List String
  repeatable : List String := []
  places : Nat
  tellsVersion : Bool := false

structure Words where
  options : List (String × String) := []
  verbose : Bool := false
  words : List String := []

def fits (option value : String) : Bool :=
  if option = "seed" then !value.isEmpty
  else if option = "step" then (TraversalStep.parse value).toOption.isSome
  else true

def setVerbose (w : Words) : Except Stop Words :=
  if w.verbose then .error .usage else .ok { w with verbose := true }

def addOption (g : Grammar) (option value : String) (w : Words) : Except Stop Words :=
  if !fits option value then .error .usage
  else if !g.repeatable.contains option && w.options.any (·.1 == option) then .error .usage
  else .ok { w with options := w.options ++ [(option, value)] }

def addWord (g : Grammar) (word : String) (w : Words) : Except Stop Words :=
  if w.words.length < g.places then .ok { w with words := w.words ++ [word] } else .error .usage

def setSwitch (g : Grammar) (name : String) (w : Words) : Except Stop Words :=
  if name = "help" || name = "h" then .error .help
  else if g.tellsVersion && (name = "version" || name = "V") then .error .version
  else if name = "verbose" || name = "v" then setVerbose w
  else .error .usage

def setSwitches (g : Grammar) : List Char → Words → Except Stop Words
  | [], w => .ok w
  | c :: cs, w =>
    match setSwitch g (if ['h', 'V', 'v'].contains c then c.toString else "") w with
    | .ok w => setSwitches g cs w
    | .error e => .error e

def looksLikeOption (word : String) : Bool :=
  match word.toList with
  | '-' :: _ :: _ => true
  | _ => false

def longOption? (word : String) : Option (String × Option String) :=
  match word.toList with
  | '-' :: '-' :: cs =>
    let name := String.ofList (cs.takeWhile (· ≠ '='))
    match cs.dropWhile (· ≠ '=') with
    | [] => some (name, none)
    | _ :: value => some (name, some (String.ofList value))
  | _ => none

def longSwitch (g : Grammar) (name : String) (w : Words) : Except Stop Words :=
  if name.length < 2 then .error .usage else setSwitch g name w

/-- Reads up to the first word that has no place, if the grammar has no places, or to the end. -/
def readWords (g : Grammar) (w : Words) : List String → Except Stop (Words × List String)
  | [] => .ok (w, [])
  | "--" :: rest =>
    (rest.foldlM (fun w word => addWord g word w) w).map (·, [])
  | word :: rest =>
    match longOption? word with
    | some (name, value) =>
      if g.options.contains name then
        match value, rest with
        | some value, rest =>
          match addOption g name value w with
          | .ok w => readWords g w rest
          | .error e => .error e
        | none, value :: rest =>
          if looksLikeOption value then .error .usage
          else
            match addOption g name value w with
            | .ok w => readWords g w rest
            | .error e => .error e
        | none, [] => .error .usage
      else if value.isSome then .error .usage
      else
        match longSwitch g name w with
        | .ok w => readWords g w rest
        | .error e => .error e
    | none =>
      if looksLikeOption word then
        match setSwitches g (word.toList.drop 1) w with
        | .ok w => readWords g w rest
        | .error e => .error e
      else if g.places = 0 then .ok (w, word :: rest)
      else
        match addWord g word w with
        | .ok w => readWords g w rest
        | .error e => .error e

/-! ## Grammars -/

def outerGrammar : Grammar :=
  { options := ["seed"], places := 0, tellsVersion := true }

def grammar? : String → Option Grammar
  | "query" => some { options := ["seed", "context"], places := 1 }
  | "traverse" =>
    some { options := ["seed", "graph", "node", "step"], repeatable := ["step"], places := 0 }
  | "export" => some { options := ["seed"], places := 0 }
  | "applicable" => some { options := ["seed"], places := 2 }
  | "relevant" => some { options := ["seed"], places := 2 }
  | _ => none

def requestNames : List String :=
  ["query", "traverse", "export", "applicable", "relevant"]

/-! ## Reading -/

def option? (name : String) (w : Words) : Option String :=
  w.options.lookup name

def plan? (w : Words) : Option (List TraversalStep) :=
  (w.options.filter (·.1 == "step")).mapM fun (_, s) => (TraversalStep.parse s).toOption

def request? (name : String) (w : Words) : Option Request :=
  match name, w.words with
  | "query", [text] => some (.query text (option? "context" w))
  | "traverse", [] => do
    let graph ← option? "graph" w
    let node ← option? "node" w
    some (.traverse graph node (← plan? w))
  | "export", [] => some .dump
  | "applicable", [concept, context] => some (.applicable concept context)
  | "relevant", [entity, context] => some (.relevant entity context)
  | _, _ => none

def readHelp : List String → Stop
  | [] => .help
  | ["help"] => .help
  | [name] => if requestNames.contains name then .help else .usage
  | _ => .usage

def readRequest (outer : Words) (name : String) (rest : List String) : Except Stop Invocation :=
  match grammar? name with
  | none => .error (if name = "help" then readHelp rest else .usage)
  | some g =>
    match readWords g {} rest with
    | .error e => .error e
    | .ok (w, []) =>
      match request? name w with
      | some request =>
        .ok { seed := (option? "seed" w).or (option? "seed" outer),
              verbose := outer.verbose || w.verbose, request }
      | none => .error .usage
    | .ok (_, _ :: _) => .error .usage

def parse (args : List String) : Except Stop Invocation :=
  match readWords outerGrammar {} args with
  | .error e => .error e
  | .ok (_, []) => .error .usage
  | .ok (outer, name :: rest) => readRequest outer name rest

/-! ## Answers -/

structure Outcome where
  code : Nat
  output : String := ""
  errors : List String := []

def Outcome.failure (message : String) : Outcome :=
  { code := 1, errors := ["Error: " ++ message] }

def Outcome.errorLines (o : Outcome) : List String :=
  o.errors.flatMap fun e => (e.splitOn "\n").map fun l =>
    if l.endsWith "\r" then (l.dropEnd 1).toString else l

def Outcome.after (verbose : Bool) (ns : List Notice) (o : Outcome) : Outcome :=
  { o with errors := (ns.filter (·.level.isTold verbose)).map Notice.text ++ o.errors }

structure Reply where
  document : Document
  code : Nat := 0
  notices : List Notice := []

/-- A query that is answered with an error fails, though its answer is printed. -/
def Reply.ofEnvelope (e : Envelope) : Reply :=
  { document := e.toDocument, code := if e.status = .error then 1 else 0 }

def Reply.ofFields (fields : List (String × Document)) : Reply :=
  { document := Document.sorted (.object fields) }

def Request.reply (k : Knowledge) : Request → Knowledge.Recall Reply
  | .query text context => return .ofEnvelope (← k.query text context)
  | .traverse graph node plan => do
    let walk ← k.traverse graph node plan
    let reply := Reply.ofFields [("complete", .bool (walk.length = plan.length + 1)),
      ("trace", .list (walk.map Waypoint.toDocument))]
    return { reply with notices := Notice.ofWalk plan walk }
  | .dump => return { document := k.graphs.toDocument }
  | .applicable concept context =>
    return .ofFields [("concept", .text concept), ("context", .text context),
      ("applicable", .bool (← k.applicable concept context))]
  | .relevant entity context =>
    return .ofFields [("instance", .text entity), ("context", .text context),
      ("relevant", .bool (← k.relevant entity context))]

def Request.failureNotices (e : Knowledge.Error) : Request → List Notice
  | .traverse .. => [.walkAborted e]
  | _ => []

def Request.run (verbose : Bool) (request : Request) (t : Trinity) : Outcome :=
  match (t.ask fun k => request.reply k).1 with
  | .ok r => Outcome.after verbose r.notices { code := r.code, output := r.document.pretty ++ "\n" }
  | .error e => Outcome.after verbose (request.failureNotices e) (.failure e.message)

def serve (fresh : Nat → String) (i : Invocation) (path : Option String)
    (seed : Except Seed.Error Seed) : Outcome :=
  match seed with
  | .error e => .failure e.message
  | .ok s =>
    let told : List Notice :=
      (match path with
        | some path => .seedRead path
        | none => .startsEmpty) :: s.notices fresh
    match s.build fresh with
    | .error e => Outcome.after i.verbose told (.failure (Seed.Error.apply e).message)
    | .ok t => Outcome.after i.verbose told (i.request.run i.verbose t)

/-! ## Texts -/

def versionText : String :=
  "tkg 0.1.0\n"

def helpText : String :=
  "Usage: tkg [--seed PATH] [--verbose] REQUEST\n\n" ++
    "  query TEXT [--context ID]\n" ++
    "  traverse --graph GRAPH --node ID [--step ADJUNCTION:DIRECTION]...\n" ++
    "  export\n" ++
    "  applicable CONCEPT CONTEXT\n" ++
    "  relevant INSTANCE CONTEXT\n"

def Stop.outcome : Stop → Outcome
  | .help => { code := 0, output := helpText }
  | .version => { code := 0, output := versionText }
  | .usage => { code := 2, errors := [helpText] }

def defaultSeed : String :=
  "tkg/seed.yaml"

def seedPath? (standard : Option String) (args : List String) : Option String :=
  (parse args).toOption.bind fun i => i.seed.or standard

/-- `read` tells what reading a file has led to. -/
def run (fresh : Nat → String) (read : String → Except FileFault ByteArray) (standard : Option String)
    (args : List String) : Outcome :=
  match parse args with
  | .error stop => stop.outcome
  | .ok i =>
    match i.seed.or standard with
    | some path => serve fresh i (some path) (Seed.ofFile path (read path))
    | none => serve fresh i none (.ok {})

end TriGraph.CommandLine
