import SmallLang.Error
import SmallLang.Tree.Basic

/-!
Scopes: the variables that are active at a point of a program, over a stack of frames. A scope binds
names to types while a program is checked and to values while it runs.

There are two strategies. Chained scopes allow a nested frame to declare a name that an outer frame
has; they keep a table for each frame. Flat scopes forbid it; they keep one table of all active
names, and for each frame the names that it has added.
-/

namespace SmallLang

inductive Strategy where
  | chained
  | flat
deriving DecidableEq

def Strategy.name : Strategy → Bytes
  | chained => utf8 "chained"
  | flat => utf8 "flat"

/-- Names with their entries, each name at most once. -/
abbrev Table (ε : Type) := List (Name × ε)

namespace Table

variable {ε : Type}

def get? (t : Table ε) (name : Name) : Option ε := t.lookup name

def contains (t : Table ε) (name : Name) : Bool := (t.get? name).isSome

def replace (name : Name) (entry : ε) : Table ε → Table ε
  | [] => []
  | (n, old) :: rest =>
    if n = name then (n, entry) :: rest else (n, old) :: replace name entry rest

def without (t : Table ε) (names : List Name) : Table ε := t.filter fun b => !names.contains b.1

end Table

/-- One table of all active names; `current` and `outer` hold the names that the frames added,
innermost first. -/
structure FlatScope (ε : Type) where
  active : Table ε
  current : List Name
  outer : List (List Name)

namespace FlatScope

variable {ε : Type}

def empty : FlatScope ε := ⟨[], [], []⟩

def lookup (s : FlatScope ε) (name : Name) : Except LangError ε :=
  match s.active.get? name with
  | some entry => .ok entry
  | none => .error (.notInScope name)

def declare (s : FlatScope ε) (name : Name) (entry : ε) : Except LangError (FlatScope ε) :=
  if s.active.contains name then .error (.duplicateVariable name)
  else .ok ⟨(name, entry) :: s.active, name :: s.current, s.outer⟩

def update (s : FlatScope ε) (name : Name) (entry : ε) : Except LangError (FlatScope ε) :=
  if s.active.contains name then .ok { s with active := s.active.replace name entry }
  else .error (.undeclaredUpdate name)

def push (s : FlatScope ε) : FlatScope ε := ⟨s.active, [], s.current :: s.outer⟩

def pop (s : FlatScope ε) : FlatScope ε :=
  ⟨s.active.without s.current, s.outer.headD [], s.outer.tail⟩

end FlatScope

/-- A table for each frame, innermost first. -/
structure ChainedScope (ε : Type) where
  current : Table ε
  outer : List (Table ε)

namespace ChainedScope

variable {ε : Type}

def empty : ChainedScope ε := ⟨[], []⟩

def find? (name : Name) : List (Table ε) → Option ε
  | [] => none
  | t :: rest =>
    match t.get? name with
    | some entry => some entry
    | none => find? name rest

def replace (name : Name) (entry : ε) : List (Table ε) → List (Table ε)
  | [] => []
  | t :: rest =>
    if t.contains name then t.replace name entry :: rest else t :: replace name entry rest

def lookup (s : ChainedScope ε) (name : Name) : Except LangError ε :=
  match find? name (s.current :: s.outer) with
  | some entry => .ok entry
  | none => .error (.notInScope name)

def declare (s : ChainedScope ε) (name : Name) (entry : ε) : Except LangError (ChainedScope ε) :=
  if s.current.contains name then .error (.duplicateVariable name)
  else .ok ⟨(name, entry) :: s.current, s.outer⟩

def update (s : ChainedScope ε) (name : Name) (entry : ε) : Except LangError (ChainedScope ε) :=
  if s.current.contains name then .ok ⟨s.current.replace name entry, s.outer⟩
  else if (find? name s.outer).isSome then .ok ⟨s.current, replace name entry s.outer⟩
  else .error (.undeclaredUpdate name)

def push (s : ChainedScope ε) : ChainedScope ε := ⟨[], s.current :: s.outer⟩

def pop (s : ChainedScope ε) : ChainedScope ε := ⟨s.outer.headD [], s.outer.tail⟩

end ChainedScope

inductive Scope (ε : Type) where
  | flat (s : FlatScope ε)
  | chained (s : ChainedScope ε)

namespace Scope

variable {ε : Type}

def empty : Strategy → Scope ε
  | .flat => flat .empty
  | .chained => chained .empty

def lookup : Scope ε → Name → Except LangError ε
  | flat s, name => s.lookup name
  | chained s, name => s.lookup name

def declare : Scope ε → Name → ε → Except LangError (Scope ε)
  | flat s, name, entry => (s.declare name entry).map flat
  | chained s, name, entry => (s.declare name entry).map chained

def update : Scope ε → Name → ε → Except LangError (Scope ε)
  | flat s, name, entry => (s.update name entry).map flat
  | chained s, name, entry => (s.update name entry).map chained

def push : Scope ε → Scope ε
  | flat s => flat s.push
  | chained s => chained s.push

def pop : Scope ε → Scope ε
  | flat s => flat s.pop
  | chained s => chained s.pop

/-- Runs an action in a new frame, which is dropped again whatever the action answers. -/
def nested {α : Type} (action : Scope ε → α × Scope ε) (s : Scope ε) : α × Scope ε :=
  let (answer, s) := action s.push
  (answer, s.pop)

end Scope

end SmallLang
