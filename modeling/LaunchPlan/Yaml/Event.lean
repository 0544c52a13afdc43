import LaunchPlan.Yaml.Token

/-!
YAML text as a flat sequence of events: scalars, and starts and ends of collections and documents.
A malformed text gives the events before its fault and then the fault, since a reader may have its
own reason to stop earlier.
-/

namespace LaunchPlan.Yaml

structure Scalar where
  anchor : Option String
  tag : Option (List UInt8)
  text : String
  style : ScalarStyle
  deriving DecidableEq

inductive Event where
  | documentStart
  | documentEnd
  | streamEnd
  | scalar (s : Scalar)
  | alias (name : String)
  | sequenceStart (anchor : Option String)
  | sequenceEnd
  | mappingStart (anchor : Option String)
  | mappingEnd
  /-- The text is malformed from here on. -/
  | fault
  deriving DecidableEq

/-- What is to come in a construct that has begun. -/
inductive Frame where
  /-- A document, or the end; the first one needs no mark. -/
  | document (first : Bool)
  | content
  | documentEnd
  | node
  | blockEntry
  /-- An entry of a sequence that is not indented below its key. -/
  | indentlessEntry
  | blockKey
  | blockValue
  | flowEntry (first : Bool)
  /-- The parts of a mapping with one entry that stands in brackets without braces. -/
  | pairKey
  | pairValue
  | pairEnd
  | flowKey (first : Bool)
  | flowValue
  /-- The value of a key that stands alone. -/
  | flowNoValue
  deriving DecidableEq

structure Reader where
  scanner : Scanner
  frames : List Frame
  handles : List (String × List UInt8)

namespace Reader

def defaultHandles : List (String × List UInt8) :=
  [("!", Scanner.loneTag), ("!!", Text.encode "tag:yaml.org,2002:")]

def start (r : Readable) : Reader := ⟨.start r, [.document true], defaultHandles⟩

def peek? (r : Reader) : Option (Token × Reader) := do
  let (t, s) ← r.scanner.peek?
  return (t, { r with scanner := s })

def take (r : Reader) : Reader := { r with scanner := r.scanner.take }

def go (r : Reader) (frames : List Frame) : Reader := { r with frames := frames }

def emptyScalar (anchor : Option String) (tag : Option (List UInt8)) : Event :=
  .scalar ⟨anchor, tag, "", .plain⟩

def noScalar : Event := emptyScalar none none

def expandTag? (r : Reader) (handle : String) (suffix : List UInt8) : Option (List UInt8) :=
  if handle = "" then some suffix else (r.handles.lookup handle).map (· ++ suffix)

/-- The anchor and the tag before a node, in either order. -/
def properties? (r : Reader) :
    Option (Option String × Option (String × List UInt8) × Reader) := do
  let (t, r) ← r.peek?
  match t with
  | .anchor name =>
    let (t, r) ← r.take.peek?
    match t with
    | .tag handle suffix => return (some name, some (handle, suffix), r.take)
    | _ => return (some name, none, r)
  | .tag handle suffix =>
    let (t, r) ← r.take.peek?
    match t with
    | .anchor name => return (some name, some (handle, suffix), r.take)
    | _ => return (none, some (handle, suffix), r)
  | _ => return (none, none, r)

/-- The first event of a node; `after` is to come behind the node. -/
def node? (r : Reader) (block indentless : Bool) (after : List Frame) :
    Option (Event × Reader) := do
  let (t, r) ← r.peek?
  match t with
  | .alias name => return (.alias name, r.take.go after)
  | _ => pure ()
  let (anchor, tagParts, r) ← r.properties?
  let (t, r) ← r.peek?
  let tag ← match tagParts with
    | none => pure none
    | some (handle, suffix) => some <$> r.expandTag? handle suffix
  match t with
  | .scalar text style =>
    return (.scalar ⟨anchor, tag, text, style⟩, r.take.go after)
  | .flowSequenceStart =>
    return (.sequenceStart anchor, r.take.go (.flowEntry true :: after))
  | .flowMappingStart => return (.mappingStart anchor, r.take.go (.flowKey true :: after))
  | .blockEntry =>
    if indentless then return (.sequenceStart anchor, r.go (.indentlessEntry :: after))
    else if anchor.isSome || tag.isSome then return (emptyScalar anchor tag, r.go after)
    else none
  | .blockSequenceStart =>
    if block then return (.sequenceStart anchor, r.take.go (.blockEntry :: after))
    else if anchor.isSome || tag.isSome then return (emptyScalar anchor tag, r.go after)
    else none
  | .blockMappingStart =>
    if block then return (.mappingStart anchor, r.take.go (.blockKey :: after))
    else if anchor.isSome || tag.isSome then return (emptyScalar anchor tag, r.go after)
    else none
  | _ =>
    if anchor.isSome || tag.isSome then return (emptyScalar anchor tag, r.go after) else none

/-- A node, or an empty scalar where a token says that there is none. -/
def nodeUnless? (r : Reader) (absent : Token → Bool) (block indentless : Bool)
    (after : List Frame) : Option (Event × Reader) := do
  let (t, r) ← r.peek?
  if absent t then return (noScalar, r.go after) else r.node? block indentless after

/-- The directives before a document: the versions and the handles that they declare. -/
def directives? (r : Reader) (version : Bool) (handles : List (String × List UInt8)) :
    Nat → Option (List (String × List UInt8) × Reader)
  | 0 => none
  | fuel + 1 => do
    let (t, r) ← r.peek?
    match t with
    | .versionDirective major minor =>
      if version || major ≠ 1 || !(minor = 1 || minor = 2) then none
      else directives? r.take true handles fuel
    | .tagDirective handle expansion =>
      if (handles.lookup handle).isSome then none
      else directives? r.take version (handles ++ [(handle, expansion)]) fuel
    | _ => return (handles, r)

def skipEnds? (r : Reader) : Nat → Option Reader
  | 0 => none
  | fuel + 1 => do
    let (t, r) ← r.peek?
    if t = .documentEnd then skipEnds? r.take fuel else return r

def isDocumentBound : Token → Bool
  | .versionDirective .. | .tagDirective .. | .documentStart | .documentEnd | .streamEnd => true
  | _ => false

def opensDocument : Token → Bool
  | .versionDirective .. | .tagDirective .. | .documentStart | .streamEnd => true
  | _ => false

def document? (r : Reader) (first : Bool) : Option (Event × Reader) := do
  let r ← if first then pure r else r.skipEnds? (r.scanner.budget + r.scanner.queue.length + 1)
  let (t, r) ← r.peek?
  if t = .streamEnd then return (.streamEnd, r.take.go [])
  else if first && !opensDocument t then
    return (.documentStart, { r with frames := [.node, .documentEnd], handles := defaultHandles })
  else
    let (handles, r) ← r.directives? false [] (r.scanner.budget + r.scanner.queue.length + 1)
    let (t, r) ← r.peek?
    if t ≠ .documentStart then none
    else
      return (.documentStart, { r.take with
        frames := [.content, .documentEnd], handles := handles ++ defaultHandles })

def endsBlockEntry (t : Token) : Bool := t = .blockEntry || t = .blockEnd

def endsIndentlessEntry (t : Token) : Bool :=
  t = .blockEntry || t = .key || t = .value || t = .blockEnd

def endsBlockKey (t : Token) : Bool := t = .key || t = .value || t = .blockEnd

def endsFlowEntry (t : Token) : Bool := t = .flowEntry || t = .flowSequenceEnd

def endsFlowKey (t : Token) : Bool := t = .flowEntry || t = .flowMappingEnd

/-- The next entry of a collection between brackets or braces, behind its comma. -/
def flowItem? (r : Reader) (first : Bool) (close : Token) : Option (Token × Reader) := do
  let (t, r) ← r.peek?
  if t = close || first then return (t, r)
  else if t = .flowEntry then r.take.peek?
  else none

def step? (r : Reader) : Option (Event × Reader) :=
  match r.frames with
  | [] => none
  | frame :: after =>
    match frame with
    | .document first => r.document? first
    | .content => r.nodeUnless? isDocumentBound true false after
    | .documentEnd => do
      let (t, r) ← r.peek?
      let r := if t = .documentEnd then r.take else r
      return (.documentEnd, r.go [.document false])
    | .node => r.node? true false after
    | .blockEntry => do
      let (t, r) ← r.peek?
      match t with
      | .blockEntry => r.take.nodeUnless? endsBlockEntry true false (.blockEntry :: after)
      | .blockEnd => return (.sequenceEnd, r.take.go after)
      | _ => none
    | .indentlessEntry => do
      let (t, r) ← r.peek?
      if t = .blockEntry then
        r.take.nodeUnless? endsIndentlessEntry true false (.indentlessEntry :: after)
      else return (.sequenceEnd, r.go after)
    | .blockKey => do
      let (t, r) ← r.peek?
      match t with
      | .key => r.take.nodeUnless? endsBlockKey true true (.blockValue :: after)
      | .blockEnd => return (.mappingEnd, r.take.go after)
      | _ => none
    | .blockValue => do
      let (t, r) ← r.peek?
      if t = .value then r.take.nodeUnless? endsBlockKey true true (.blockKey :: after)
      else return (noScalar, r.go (.blockKey :: after))
    | .flowEntry first => do
      let (t, r) ← r.flowItem? first .flowSequenceEnd
      match t with
      | .flowSequenceEnd => return (.sequenceEnd, r.take.go after)
      | .key => return (.mappingStart none, r.take.go (.pairKey :: .flowEntry false :: after))
      | _ => r.node? false false (.flowEntry false :: after)
    | .pairKey => do
      let (t, r) ← r.peek?
      if t = .value || endsFlowEntry t then return (noScalar, r.take.go (.pairValue :: after))
      else r.node? false false (.pairValue :: after)
    | .pairValue => do
      let (t, r) ← r.peek?
      if t = .value then r.take.nodeUnless? endsFlowEntry false false (.pairEnd :: after)
      else return (noScalar, r.go (.pairEnd :: after))
    | .pairEnd => return (.mappingEnd, r.go after)
    | .flowKey first => do
      let (t, r) ← r.flowItem? first .flowMappingEnd
      match t with
      | .flowMappingEnd => return (.mappingEnd, r.take.go after)
      | .key =>
        r.take.nodeUnless? (fun t => t = .value || endsFlowKey t) false false
          (.flowValue :: after)
      | _ => r.node? false false (.flowNoValue :: after)
    | .flowValue => do
      let (t, r) ← r.peek?
      if t = .value then r.take.nodeUnless? endsFlowKey false false (.flowKey false :: after)
      else return (noScalar, r.go (.flowKey false :: after))
    | .flowNoValue => return (noScalar, r.go (.flowKey false :: after))

/-- The events from here on, `fuel` of them at most. -/
def events (r : Reader) : Nat → List Event
  | 0 => [.fault]
  | fuel + 1 =>
    match r.step? with
    | none => [.fault]
    | some (.streamEnd, _) => [.streamEnd]
    | some (e, r) => e :: r.events fuel

end Reader

/-- The events of a text; what cannot be read is a fault where it begins. There are less than
sixteen events to a character. -/
def events (text : String) : List Event :=
  let r := readable text.toList
  (Reader.start r).events (16 * (r.text.length + 4))

end LaunchPlan.Yaml
