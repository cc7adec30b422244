import WorkflowCatalog.Yaml.Node
import WorkflowCatalog.Yaml.Scalar

/-!
# YAML values

A document with its aliases followed and its scalars resolved. Local tags stay in the value, and most
views look through them. No key of a mapping may stand twice, collections nest 128 deep at most, and
following aliases is limited.
-/
namespace WorkflowCatalog.Yaml

inductive Value
  | null
  | bool (b : Bool)
  | number (n : Decimal.Number)
  | text (s : String)
  | sequence (items : List Value)
  | mapping (pairs : List (Value × Value))
  | tagged (tag : String) (value : Value)
deriving Repr, Inhabited

namespace Value

def untag : Value → Value
  | .tagged _ v => v.untag
  | v => v

def text? (v : Value) : Option String :=
  match v.untag with
  | .text s => some s
  | _ => none

def sequence? (v : Value) : Option (List Value) :=
  match v.untag with
  | .sequence items => some items
  | _ => none

def mapping? (v : Value) : Option (List (Value × Value)) :=
  match v.untag with
  | .mapping pairs => some pairs
  | _ => none

/-- The value under an untagged text key. -/
def lookup (name : String) : List (Value × Value) → Option Value
  | [] => none
  | (.text s, v) :: pairs => if s = name then some v else lookup name pairs
  | _ :: pairs => lookup name pairs

def get? (name : String) (v : Value) : Option Value := v.mapping?.bind (lookup name)

/-- The mark at the front of a tag is not compared. -/
def tagName (tag : String) : String :=
  match tag.toList with
  | '!' :: c :: rest => String.ofList (c :: rest)
  | _ => tag

mutual

/-- Equality of keys; the order of a mapping does not count. -/
def same : Value → Value → Bool
  | .null, .null => true
  | .bool a, .bool b => a == b
  | .number a, .number b => a.same b
  | .text a, .text b => a == b
  | .sequence as, .sequence bs => as.length == bs.length && sameItems as bs
  | .mapping ps, .mapping qs => ps.length == qs.length && samePairs ps qs
  | .tagged s a, .tagged t b => tagName s == tagName t && same a b
  | _, _ => false

def sameItems : List Value → List Value → Bool
  | a :: as, b :: bs => same a b && sameItems as bs
  | _, _ => true

def samePairs : List (Value × Value) → List (Value × Value) → Bool
  | [], _ => true
  | (k, v) :: ps, qs => qs.any (fun q => same k q.1 && same v q.2) && samePairs ps qs

end

def ofPlain : Plain → Value
  | .null => .null
  | .bool b => .bool b
  | .number n => .number n
  | .text s => .text s

end Value

/-! ## Following aliases -/

/-- A node that an alias may stand for. Its number is the count of anchor names before it, so a name that
is used again takes a number that the next new name takes too; of two such nodes the later one counts. -/
structure Target where
  number : Nat
  start : Nat
  node : Node Nat

structure Links where
  names : List (String × Nat)
  started : Nat
  targets : List Target

namespace Links

def empty : Links := ⟨[], 0, []⟩

def begin (l : Links) (p : Properties) : Links :=
  match p.anchor with
  | none => l
  | some a =>
    let number := l.names.length
    let others := l.names.filter fun n => n.1 != a
    { l with names := (a, number) :: others, started := l.started + 1 }

/-- Records a node whose anchor was begun in `l`. -/
def finish (l : Links) (p : Properties) (n : Node Nat) (now : Links) : Links :=
  match p.anchor with
  | none => now
  | some _ => { now with targets := ⟨l.names.length, l.started, n⟩ :: now.targets }

def latest? (number : Nat) (l : Links) : Option (Node Nat) :=
  ((l.targets.filter fun t => t.number == number).foldl
    (fun best t => match best with
      | some b => if b.start < t.start then some t else some b
      | none => some t) none).map Target.node

end Links

mutual

/-- Gives every alias the number that its name has where it stands. -/
def link? (l : Links) : Node String → Option (Node Nat × Links)
  | .alias name => (l.names.lookup name).map fun n => (.alias n, l)
  | .scalar p text plain =>
    let n : Node Nat := .scalar p text plain
    some (n, l.finish p n (l.begin p))
  | .sequence p items => do
    let (items, now) ← linkItems? (l.begin p) items
    let n : Node Nat := .sequence p items
    return (n, l.finish p n now)
  | .mapping p pairs => do
    let (pairs, now) ← linkPairs? (l.begin p) pairs
    let n : Node Nat := .mapping p pairs
    return (n, l.finish p n now)

def linkItems? (l : Links) : List (Node String) → Option (List (Node Nat) × Links)
  | [] => some ([], l)
  | n :: ns => do
    let (n, l) ← link? l n
    let (ns, l) ← linkItems? l ns
    return (n :: ns, l)

def linkPairs? (l : Links) : List (Node String × Node String) → Option (List (Node Nat × Node Nat) × Links)
  | [] => some ([], l)
  | (k, v) :: ps => do
    let (k, l) ← link? l k
    let (v, l) ← link? l v
    let (ps, l) ← linkPairs? l ps
    return ((k, v) :: ps, l)

end

mutual

/-- How many events the node is read from. -/
def Node.events {α : Type} : Node α → Nat
  | .alias _ => 1
  | .scalar _ _ _ => 1
  | .sequence _ items => 2 + eventsOfItems items
  | .mapping _ pairs => 2 + eventsOfPairs pairs

def eventsOfItems {α : Type} : List (Node α) → Nat
  | [] => 0
  | n :: ns => n.events + eventsOfItems ns

def eventsOfPairs {α : Type} : List (Node α × Node α) → Nat
  | [] => 0
  | (k, v) :: ps => k.events + v.events + eventsOfPairs ps

end

/-- A document whose aliases can be followed. -/
structure Linked where
  root : Node Nat
  links : Links

def Linked.ofNode? (n : Node String) : Option Linked := (link? Links.empty n).map fun r => ⟨r.1, r.2⟩

/-- Reading with a number of aliases that may still be followed. -/
abbrev Following := StateT Nat Option

def Linked.follow (doc : Linked) : Node Nat → Following (Node Nat)
  | .alias number => do
    let left ← get
    if left = 0 then failure
    else
      set (left - 1)
      match doc.links.latest? number with
      | some n => return n
      | none => failure
  | n => return n

/-- A local tag, which stays in the value. -/
def localTag? (p : Properties) : Option String :=
  match p.tag with
  | none => none
  | some t => if t.toList.head? = some '!' then some (Value.tagName t) else none

/-- A scalar with a tag of the core schema is read by that tag; any other such tag makes it a text. -/
def ofCoreTag? (tag text : String) : Option Value :=
  if tag = "tag:yaml.org,2002:bool" then (Plain.bool? text).map .bool
  else if tag = "tag:yaml.org,2002:int" then
    match Plain.integerForm text.toList with
    | .fits n => some (.number (.int n))
    | _ => none
  else if tag = "tag:yaml.org,2002:float" then (Plain.float? text.toList).map .number
  else if tag = "tag:yaml.org,2002:null" then if Plain.isNull text then some .null else none
  else some (.text text)

def ofUntagged? (text : String) (plain : Bool) : Option Value :=
  if plain then (Plain.ofText? text).map Value.ofPlain else some (.text text)

def ofScalar? (p : Properties) (text : String) (plain : Bool) : Option Value :=
  match localTag? p, p.tag with
  | some t, _ => (ofUntagged? text plain).map (.tagged t)
  | none, some t => ofCoreTag? t text
  | none, none => ofUntagged? text plain

def withTag (p : Properties) (v : Value) : Value :=
  match localTag? p with
  | some t => .tagged t v
  | none => v

/-- Pairs in order; a key must be new when it is read. -/
def distinctPairs? {α : Type} (read : α → Following Value) :
    List (α × α) → List (Value × Value) → Following (List (Value × Value))
  | [], _ => return []
  | (k, v) :: ps, seen => do
    let k ← read k
    if seen.any fun p => Value.same p.1 k then failure
    else
      let v ← read v
      let ps ← distinctPairs? read ps ((k, v) :: seen)
      return (k, v) :: ps

def Linked.value (doc : Linked) : Nat → Node Nat → Following Value
  | depth, n => do
    let n ← doc.follow n
    match n, depth with
    | .scalar p text plain, _ => liftM (ofScalar? p text plain)
    | .sequence p items, d + 1 =>
      let items ← items.mapM (doc.value d)
      return withTag p (.sequence items)
    | .mapping p pairs, d + 1 =>
      let pairs ← distinctPairs? (doc.value d) pairs []
      return withTag p (.mapping pairs)
    | _, _ => failure

def maxDepth : Nat := 128

/-- The value of a text; an empty stream is null. -/
def Value.read? (text : String) : Option Value := do
  match ← document? text with
  | none => return .null
  | some n =>
    let doc ← Linked.ofNode? n
    let (v, _) ← (doc.value maxDepth doc.root).run (100 * n.events)
    return v

end WorkflowCatalog.Yaml
