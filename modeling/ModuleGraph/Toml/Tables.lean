import ModuleGraph.KeyedList
import ModuleGraph.Toml.Fault
import ModuleGraph.Value

/-! The tables of a TOML document while it is read, with the rules on which of them may
still be opened or extended. -/

namespace ModuleGraph.Toml

abbrev Entries := List (String × Value)

/-- Changes the table that a key leads to, and makes the tables on the way. A list stands for
its last item if `throughLists` holds. A key that leads through anything else fails. -/
def updateTable (throughLists : Bool) (change : Entries → Except Cause Entries) :
    Key → Entries → Except Cause Entries
  | [], entries => change entries
  | name :: rest, entries => do
    match entries.lookup name with
    | none =>
      let inner ← updateTable throughLists change rest []
      pure (upsert name (.table inner) entries)
    | some (.table inner) =>
      let inner ← updateTable throughLists change rest inner
      pure (upsert name (.table inner) entries)
    | some (.list items) =>
      match throughLists, items.getLast? with
      | true, some (.table inner) =>
        let inner ← updateTable throughLists change rest inner
        pure (upsert name (.list (items.dropLast ++ [.table inner])) entries)
      | _, _ => throw .overwritten
    | some _ => throw .overwritten

def addEntry (refusal : Cause) (name : String) (v : Value) (entries : Entries) :
    Except Cause Entries :=
  if (entries.lookup name).isSome then .error refusal else .ok (upsert name v entries)

def appendTable (name : String) (entries : Entries) : Except Cause Entries :=
  match entries.lookup name with
  | none => .ok (upsert name (.list [.table []]) entries)
  | some (.list items) => .ok (upsert name (.list (items ++ [.table []])) entries)
  | some _ => .error .overwritten

def covers (keys : List Key) (key : Key) : Bool :=
  keys.any (·.isPrefixOf key)

def without (keys : List Key) (key : Key) : List Key :=
  keys.filter (fun k => !key.isPrefixOf k)

/-- A document so far. Tables in `opened` may not be declared again; those in `frozen`, and
all below them, may not change. `pending` holds tables that dotted keys have made: they join
`opened` when the next table begins. `header` is the table that entries go to. -/
structure Tables where
  entries : Entries := []
  opened : List Key := []
  frozen : List Key := []
  pending : List Key := []
  header : Key := []

namespace Tables

def settle (t : Tables) : Tables :=
  { t with opened := t.opened ++ t.pending, pending := [] }

def openTable (t : Tables) (key : Key) : Except Cause Tables := do
  if t.opened.contains key || covers t.frozen key then throw (.declaredTwice key)
  let entries ← updateTable true .ok key t.entries
  return { t with entries, opened := key :: t.opened, header := key }

/-- Declares one more table of a list and turns to it. What was declared below the last one
may be declared below this one again. -/
def openItem (t : Tables) (key : Key) : Except Cause Tables := do
  if covers t.frozen key then throw (.namespaceFrozen key)
  let entries ←
    match key.getLast? with
    | some name => updateTable true (appendTable name) key.dropLast t.entries
    | none => pure t.entries
  return { t with
    entries
    opened := key :: without t.opened key
    frozen := without t.frozen key
    header := key }

/-- The tables that a dotted key goes through, from the table `header` on. -/
def passed (header key : Key) : List Key :=
  (List.range (key.length - 1)).map (fun i => header ++ key.take (i + 1))

def assign (t : Tables) (key : Key) (v : Value) : Except Cause Tables := do
  let passed := passed t.header key
  match passed.find? t.opened.contains with
  | some k => throw (.namespaceRedefined k)
  | none => pure ()
  let parent := t.header ++ key.dropLast
  if covers t.frozen parent then throw (.namespaceFrozen parent)
  let entries ←
    updateTable true (addEntry .overwritten (key.getLast?.getD "") v) parent t.entries
  let frozen := if v.isAtomic then t.frozen else (t.header ++ key) :: t.frozen
  return { t with entries, frozen, pending := t.pending ++ passed }

end Tables

/-- An inline table so far, and the keys whose values are complete. -/
structure InlineTable where
  entries : Entries := []
  frozen : List Key := []

def InlineTable.assign (t : InlineTable) (key : Key) (v : Value) : Except Cause InlineTable := do
  if covers t.frozen key then throw (.namespaceFrozen key)
  let name := key.getLast?.getD ""
  let entries ← updateTable false (addEntry (.duplicateName name) name v) key.dropLast t.entries
  return { entries, frozen := if v.isAtomic then t.frozen else key :: t.frozen }

end ModuleGraph.Toml
