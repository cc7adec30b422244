import WorkflowCatalog.Yaml.Token

/-!
# YAML nodes

A document is a tree of scalars, sequences, mappings and aliases, as the text spells it: scalars are not
yet resolved and aliases not yet followed. A stream holds one document at most.
-/
namespace WorkflowCatalog.Yaml

/-- Anchor and tag; a tag is written with its handle expanded. -/
structure Properties where
  anchor : Option String
  tag : Option String
deriving DecidableEq, Repr, Inhabited

/-- An alias names what it stands for by a value of type `α`. -/
inductive Node (α : Type)
  | scalar (properties : Properties) (text : String) (plain : Bool)
  | sequence (properties : Properties) (items : List (Node α))
  | mapping (properties : Properties) (pairs : List (Node α × Node α))
  | alias (target : α)
deriving Repr

instance {α : Type} : Inhabited (Node α) := ⟨.scalar ⟨none, none⟩ "" true⟩

namespace Node

def bare : Properties := ⟨none, none⟩

/-- What stands where a node is left out. -/
def absent {α : Type} : Node α := .scalar bare "" true

/-- The handles of tags and what they expand to. -/
abbrev Handles := List (String × String)

def defaultHandles : Handles := [("!", "!"), ("!!", "tag:yaml.org,2002:")]

def expandTag? (handles : Handles) (handle suffix : String) : Option String :=
  if handle.isEmpty then some suffix else (handles.lookup handle).map (· ++ suffix)

/-- Anchor and tag, in either order, at most one of each. -/
def properties? (handles : Handles) (ts : List Token) : Option (Properties × List Token) :=
  match ts with
  | .anchor a :: .tag h s :: rest => (expandTag? handles h s).map fun t => (⟨some a, some t⟩, rest)
  | .anchor a :: rest => some (⟨some a, none⟩, rest)
  | .tag h s :: .anchor a :: rest => (expandTag? handles h s).map fun t => (⟨some a, some t⟩, rest)
  | .tag h s :: rest => (expandTag? handles h s).map fun t => (⟨none, some t⟩, rest)
  | _ => some (bare, ts)

/-- The tag `!` is dropped from a scalar, which stays plain or quoted as it is written. -/
def ofScalar (p : Properties) (text : String) (plain : Bool) : Node String :=
  .scalar (if p.tag = some "!" then { p with tag := none } else p) text plain

def startsWithAny (stops ts : List Token) : Bool :=
  match ts with
  | t :: _ => stops.contains t
  | [] => false

mutual

/-- A node at the front of the tokens. In a block mapping a sequence need not be indented. -/
def node (handles : Handles) : Nat → Bool → Bool → List Token → Option (Node String × List Token)
  | 0, _, _, _ => none
  | _ + 1, _, _, .alias name :: rest => some (.alias name, rest)
  | fuel + 1, block, unindented, ts => do
    let (p, rest) ← properties? handles ts
    match rest, block, unindented with
    | .blockEntry :: _, _, true =>
      let (items, rest) ← unindentedItems handles fuel rest
      return (.sequence p items, rest)
    | .scalar text plain :: rest, _, _ => return (ofScalar p text plain, rest)
    | .flowSequence :: rest, _, _ =>
      let (items, rest) ← flowItems handles fuel true rest
      return (.sequence p items, rest)
    | .flowMapping :: rest, _, _ =>
      let (pairs, rest) ← flowPairs handles fuel true rest
      return (.mapping p pairs, rest)
    | .blockSequence :: rest, true, _ =>
      let (items, rest) ← blockItems handles fuel rest
      return (.sequence p items, rest)
    | .blockMapping :: rest, true, _ =>
      let (pairs, rest) ← blockPairs handles fuel rest
      return (.mapping p pairs, rest)
    | rest, _, _ => if p = bare then none else return (.scalar p "" true, rest)

/-- A node, unless one of the stops comes first. -/
def nodeUnless (handles : Handles) : Nat → List Token → Bool → Bool → List Token → Option (Node String × List Token)
  | 0, _, _, _, _ => none
  | fuel + 1, stops, block, unindented, ts =>
    if startsWithAny stops ts then some (absent, ts) else node handles fuel block unindented ts

def blockItems (handles : Handles) : Nat → List Token → Option (List (Node String) × List Token)
  | 0, _ => none
  | fuel + 1, ts =>
    match ts with
    | .blockEntry :: rest => do
      let (item, rest) ← nodeUnless handles fuel [.blockEntry, .blockEnd] true false rest
      let (items, rest) ← blockItems handles fuel rest
      return (item :: items, rest)
    | .blockEnd :: rest => some ([], rest)
    | _ => none

def unindentedItems (handles : Handles) : Nat → List Token → Option (List (Node String) × List Token)
  | 0, _ => none
  | fuel + 1, ts =>
    match ts with
    | .blockEntry :: rest => do
      let (item, rest) ← nodeUnless handles fuel [.blockEntry, .key, .value, .blockEnd] true false rest
      let (items, rest) ← unindentedItems handles fuel rest
      return (item :: items, rest)
    | _ => some ([], ts)

def blockPairs (handles : Handles) : Nat → List Token → Option (List (Node String × Node String) × List Token)
  | 0, _ => none
  | fuel + 1, ts =>
    match ts with
    | .key :: rest => do
      let (k, rest) ← nodeUnless handles fuel [.key, .value, .blockEnd] true true rest
      let (v, rest) ← match rest with
        | .value :: rest => nodeUnless handles fuel [.key, .value, .blockEnd] true true rest
        | _ => some (absent, rest)
      let (pairs, rest) ← blockPairs handles fuel rest
      return ((k, v) :: pairs, rest)
    | .blockEnd :: rest => some ([], rest)
    | _ => none

/-- Items up to the closing bracket. A key makes a mapping of one pair. -/
def flowItems (handles : Handles) : Nat → Bool → List Token → Option (List (Node String) × List Token)
  | 0, _, _ => none
  | _ + 1, _, .flowSequenceEnd :: rest => some ([], rest)
  | fuel + 1, first, ts => do
    let ts ← match first, ts with
      | true, _ => some ts
      | false, .flowEntry :: rest => some rest
      | false, _ => none
    match ts with
    | .flowSequenceEnd :: rest => return ([], rest)
    | .key :: rest =>
      let (pair, rest) ← flowPair handles fuel rest
      let (items, rest) ← flowItems handles fuel false rest
      return (.mapping bare [pair] :: items, rest)
    | _ =>
      let (item, rest) ← node handles fuel false false ts
      let (items, rest) ← flowItems handles fuel false rest
      return (item :: items, rest)

/-- The pair after a key mark in a flow sequence. A key that is left out takes the next token with it. -/
def flowPair (handles : Handles) : Nat → List Token → Option ((Node String × Node String) × List Token)
  | 0, _ => none
  | fuel + 1, ts => do
    let (k, rest) ← if startsWithAny [.value, .flowEntry, .flowSequenceEnd] ts then some (absent, ts.drop 1)
      else node handles fuel false false ts
    match rest with
    | .value :: rest =>
      let (v, rest) ← nodeUnless handles fuel [.flowEntry, .flowSequenceEnd] false false rest
      return ((k, v), rest)
    | _ => return ((k, absent), rest)

def flowPairs (handles : Handles) : Nat → Bool → List Token → Option (List (Node String × Node String) × List Token)
  | 0, _, _ => none
  | _ + 1, _, .flowMappingEnd :: rest => some ([], rest)
  | fuel + 1, first, ts => do
    let ts ← match first, ts with
      | true, _ => some ts
      | false, .flowEntry :: rest => some rest
      | false, _ => none
    match ts with
    | .flowMappingEnd :: rest => return ([], rest)
    | .key :: rest =>
      let (k, rest) ← nodeUnless handles fuel [.value, .flowEntry, .flowMappingEnd] false false rest
      let (v, rest) ← match rest with
        | .value :: rest => nodeUnless handles fuel [.flowEntry, .flowMappingEnd] false false rest
        | _ => some (absent, rest)
      let (pairs, rest) ← flowPairs handles fuel false rest
      return ((k, v) :: pairs, rest)
    | _ =>
      let (k, rest) ← node handles fuel false false ts
      let (pairs, rest) ← flowPairs handles fuel false rest
      return ((k, absent) :: pairs, rest)

end

/-- The directives of a document: one version, 1.1 or 1.2, and handles, each defined once. -/
def directives? (version : Bool) (handles : Handles) : List Token → Option (Handles × List Token)
  | .yamlDirective major minor :: rest =>
    if version || major ≠ 1 || (minor ≠ 1 && minor ≠ 2) then none else directives? true handles rest
  | .tagDirective handle expansion :: rest =>
    if (handles.lookup handle).isSome then none
    else directives? version (handles ++ [(handle, expansion)]) rest
  | ts => some (handles, ts)

def skipDocumentEnds (ts : List Token) : List Token := ts.dropWhile (· == .documentEnd)

/-- The first document of the tokens; nothing if there is none. -/
def first? (ts : List Token) : Option (Option (Node String) × List Token) :=
  let fuel := 4 * ts.length + 8
  match ts with
  | [.streamEnd] => some (none, ts)
  | _ => do
    let (given, rest) ← directives? false [] ts
    let handles := given ++ defaultHandles
    match rest with
    | .documentStart :: .documentStart :: _ => return (some absent, rest.drop 1)
    | .documentStart :: .documentEnd :: _ => return (some absent, rest.drop 1)
    | .documentStart :: .streamEnd :: _ => return (some absent, rest.drop 1)
    | .documentStart :: .yamlDirective _ _ :: _ => return (some absent, rest.drop 1)
    | .documentStart :: .tagDirective _ _ :: _ => return (some absent, rest.drop 1)
    | .documentStart :: rest =>
      let (n, rest) ← node handles fuel true false rest
      return (some n, rest)
    | _ =>
      if rest.length < ts.length then none
      else
        let (n, rest) ← node handles fuel true false rest
        return (some n, rest)

end Node

/-- The single document of a text: no node if the stream is empty, an error if there is more than one. -/
def document? (text : String) : Option (Option (Node String)) := do
  let ts ← tokens? text
  let (n, rest) ← Node.first? ts
  if Node.skipDocumentEnds rest = [.streamEnd] then return n else none

end WorkflowCatalog.Yaml
