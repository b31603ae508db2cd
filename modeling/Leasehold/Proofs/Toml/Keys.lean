import Mathlib.Data.List.Nodup
import Leasehold.Toml.Document
import Leasehold.Proofs.Runs

set_option autoImplicit false

/-!
No table of a document has a key twice.

A statement changes one table, at the end of a path, and there are only two things that it does to the
keys of a table: a key that is there gets another value in its place, and a new key comes behind all
others. So the tables on the way, the table at its end and the document keep their keys apart.
-/

namespace Leasehold.Toml

inductive Value.Keyed : Value → Prop where
  | string (text : String) : Keyed (.string text)
  | integer (value : Int) : Keyed (.integer value)
  | float (literal : String) : Keyed (.float literal)
  | boolean (value : Bool) : Keyed (.boolean value)
  | moment (literal : String) : Keyed (.moment literal)
  | array {items : List Value} (each : ∀ item ∈ items, Keyed item) : Keyed (.array items)
  | table {origin : Origin} {entries : Entries} (distinct : (entries.map Prod.fst).Nodup)
      (each : ∀ entry ∈ entries, Keyed entry.2) : Keyed (.table origin entries)
  | tables {elements : List Entries}
      (each : ∀ entries ∈ elements, Keyed (.table .header entries)) : Keyed (.tables elements)

namespace Entries

variable {entries : Entries} {key : String} {value : Value} {dotted : Bool}
  {change : Origin → Entries → Option Entries} {path : List String} {origin : Origin}

structure Keyed (entries : Entries) : Prop where
  distinct : (entries.map Prod.fst).Nodup
  each : ∀ entry ∈ entries, entry.2.Keyed

theorem keyed_nil : Keyed [] := ⟨List.nodup_nil, by simp⟩

theorem Keyed.lookup (keyed : Keyed entries) (found : entries.lookup key = some value) :
    value.Keyed := by
  obtain ⟨before, after, rfl, -⟩ := List.lookup_eq_some_iff.mp found
  exact keyed.each (key, value) (by simp)

theorem keyed_table_iff : Value.Keyed (.table origin entries) ↔ Keyed entries := by
  constructor
  · intro keyed
    cases keyed with
    | table distinct each => exact ⟨distinct, each⟩
  · exact fun keyed => .table keyed.distinct keyed.each

theorem keyed_tables_iff {elements : List Entries} :
    Value.Keyed (.tables elements) ↔ ∀ entries ∈ elements, Keyed entries := by
  constructor
  · intro keyed
    cases keyed with
    | tables each => exact fun entries among => keyed_table_iff.mp (each entries among)
  · exact fun each => .tables fun entries among => keyed_table_iff.mpr (each entries among)

/-! ### Changes to one table -/

theorem Keyed.concat (keyed : Keyed entries) (missing : entries.lookup key = none)
    (inner : value.Keyed) : Keyed (entries ++ [(key, value)]) := by
  have new : key ∉ entries.map Prod.fst := by
    intro present
    obtain ⟨entry, among, same⟩ := List.mem_map.mp present
    have other := List.lookup_eq_none_iff.mp missing entry among
    simp [same] at other
  constructor
  · rw [List.map_append, List.map_cons, List.map_nil, List.nodup_append]
    refine ⟨keyed.distinct, List.nodup_singleton key, ?_⟩
    rintro other present _ (_ | _)
    · rintro rfl
      exact new present
    · contradiction
  · intro entry present
    rcases List.mem_append.mp present with before | last
    · exact keyed.each entry before
    · obtain rfl := List.mem_singleton.mp last
      exact inner

theorem mem_put {entry : String × Value} (present : entry ∈ put key value entries) :
    entry = (key, value) ∨ entry ∈ entries := by
  induction entries with
  | nil => exact .inl (List.mem_singleton.mp present)
  | cons first rest ih =>
      obtain ⟨other, old⟩ := first
      unfold put at present
      split at present
      · exact (List.mem_cons.mp present).imp id (List.mem_cons_of_mem _)
      · rcases List.mem_cons.mp present with rfl | later
        · exact .inr List.mem_cons_self
        · exact (ih later).imp id (List.mem_cons_of_mem _)

theorem Keyed.put (keyed : Keyed entries) (inner : value.Keyed) : Keyed (put key value entries) := by
  constructor
  · induction entries with
    | nil => exact List.nodup_singleton key
    | cons first rest ih =>
        obtain ⟨other, old⟩ := first
        obtain ⟨apart, distinct⟩ := List.nodup_cons.mp keyed.distinct
        have later := List.forall_mem_cons.mp keyed.each
        unfold Entries.put
        split
        · next same => exact List.nodup_cons.mpr ⟨same ▸ apart, distinct⟩
        · next different =>
          refine List.nodup_cons.mpr ⟨?_, ih ⟨distinct, later.2⟩⟩
          intro present
          obtain ⟨entry, among, same⟩ := List.mem_map.mp present
          rcases mem_put among with rfl | before
          · exact different same.symm
          · exact apart (List.mem_map.mpr ⟨entry, before, same⟩)
  · intro entry present
    rcases mem_put present with rfl | before
    · exact inner
    · exact keyed.each entry before

/-- A change that keeps the keys of a table apart. -/
def Keeps (change : Origin → Entries → Option Entries) : Prop :=
  ∀ origin entries changed, Keyed entries → change origin entries = some changed → Keyed changed

/-- So does a change at the end of a path, for the tables on the way. -/
theorem Keeps.within (keeps : Keeps change) (path : List String) :
    Keeps (Entries.within dotted change path) := by
  induction path with
  | nil => exact keeps
  | cons key path ih =>
      intro origin entries changed keyed made
      unfold Entries.within at made
      split at made
      · next missing =>
        obtain ⟨inner, within, ⟨⟩⟩ := Option.bind_eq_some_iff.mp made
        exact keyed.concat missing (keyed_table_iff.mpr (ih _ _ _ keyed_nil within))
      · next found =>
        split at made
        · cases made
        · obtain ⟨inner, within, ⟨⟩⟩ := Option.bind_eq_some_iff.mp made
          have before := keyed_table_iff.mp (keyed.lookup found)
          exact keyed.put (keyed_table_iff.mpr (ih _ _ _ before within))
      · next latest earlier found =>
        obtain ⟨inner, within, ⟨⟩⟩ := Option.bind_eq_some_iff.mp made
        obtain ⟨first, others⟩ := List.forall_mem_cons.mp (keyed_tables_iff.mp (keyed.lookup found))
        exact keyed.put (keyed_tables_iff.mpr
          (List.forall_mem_cons.mpr ⟨ih _ _ _ first within, others⟩))
      · cases made

theorem keeps_define (inner : value.Keyed) : Keeps (define dotted key value) := by
  intro origin entries changed keyed made
  unfold define at made
  split at made
  · cases made
  · split at made
    · cases made
    · next missing =>
      cases made
      exact keyed.concat missing inner

theorem keeps_defineAt (inner : value.Keyed) : Keeps (defineAt path key value) :=
  (keeps_define inner).within path

theorem keeps_openTable (key : String) : Keeps (openTable key) := by
  intro origin entries changed keyed made
  unfold openTable at made
  split at made
  · next missing =>
    cases made
    exact keyed.concat missing (keyed_table_iff.mpr keyed_nil)
  · next found =>
    cases made
    exact keyed.put (keyed_table_iff.mpr (keyed_table_iff.mp (keyed.lookup found)))
  · cases made

theorem keeps_openElement (key : String) : Keeps (openElement key) := by
  intro origin entries changed keyed made
  unfold openElement at made
  split at made
  · next missing =>
    cases made
    exact keyed.concat missing (keyed_tables_iff.mpr (by simp [keyed_nil]))
  · next found =>
    cases made
    have each := keyed_tables_iff.mp (keyed.lookup found)
    exact keyed.put (keyed_tables_iff.mpr (List.forall_mem_cons.mpr ⟨keyed_nil, each⟩))
  · cases made

theorem keyed_of_ofPairs {pairs : List ((List String × String) × Value)}
    (each : ∀ pair ∈ pairs, pair.2.Keyed) (made : ofPairs pairs = some entries) : Keyed entries := by
  refine Runs.induct (motive := fun pairs entries => (∀ pair ∈ pairs, pair.2.Keyed) → Keyed entries)
    (fun _ => keyed_nil) ?_ pairs made each
  intro before entries pair next _ ih defined each
  obtain ⟨earlier, here⟩ := List.forall_mem_append.mp each
  exact keeps_defineAt (here pair List.mem_cons_self) _ _ _ (ih earlier) defined

end Entries

/-! ### Values -/

theorem keyed_of_scalar {text rest : List Char} {value : Value}
    (read : scalar text = some (value, rest)) : value.Keyed := by
  simp only [scalar, Option.orElse_eq_orElse, Option.orElse_eq_or, Option.or_eq_some_iff,
    Option.map_eq_some_iff] at read
  rcases read with ⟨_, _, ⟨⟩⟩ | ⟨-, ⟨_, _, ⟨⟩⟩ | ⟨-, ⟨_, _, ⟨⟩⟩ | ⟨-, ⟨_, _, ⟨⟩⟩ | ⟨-, ⟨_, _, ⟨⟩⟩⟩⟩⟩⟩
  · exact .string _
  · exact .boolean _
  · exact .moment _
  · exact .float _
  · exact .integer _

/-- What is read within a bound has its keys apart: a value, the items of an array, and the values of
the pairs between braces. -/
structure KeyedWithin (bound : Nat) : Prop where
  value : ∀ {depth text value rest}, valueWithin bound depth text = some (value, rest) → value.Keyed
  items : ∀ {depth text items rest}, itemsWithin bound depth text = some (items, rest) →
    ∀ item ∈ items, item.Keyed
  pairs : ∀ {depth text pairs rest}, pairsWithin bound depth text = some (pairs, rest) →
    ∀ pair ∈ pairs, pair.2.Keyed

namespace KeyedWithin

variable {bound depth : Nat} {text rest : List Char}

theorem value_succ (within : KeyedWithin bound) {value : Value}
    (read : valueWithin (bound + 1) depth text = some (value, rest)) : value.Keyed := by
  unfold valueWithin at read
  split at read
  · cases read
  · next same =>
    cases same
    simp only [Option.bind_eq_bind, Option.bind_none, Option.ite_none_left_eq_some] at read
    obtain ⟨⟨items, after⟩, inner, ⟨⟩⟩ := Option.bind_eq_some_iff.mp read.2
    exact .array (within.items inner)
  · next same =>
    cases same
    simp only [Option.bind_eq_bind, Option.bind_some, Option.bind_none,
      Option.ite_none_left_eq_some] at read
    replace read := read.2
    split at read
    · obtain ⟨entries, made, ⟨⟩⟩ := Option.bind_eq_some_iff.mp read
      exact Entries.keyed_table_iff.mpr (Entries.keyed_of_ofPairs (by simp) made)
    · obtain ⟨⟨pairs, after⟩, inner, read⟩ := Option.bind_eq_some_iff.mp read
      obtain ⟨entries, made, ⟨⟩⟩ := Option.bind_eq_some_iff.mp read
      exact Entries.keyed_table_iff.mpr (Entries.keyed_of_ofPairs (within.pairs inner) made)
  · exact keyed_of_scalar read

theorem items_succ (within : KeyedWithin bound) {items : List Value}
    (read : itemsWithin (bound + 1) depth text = some (items, rest)) :
    ∀ item ∈ items, item.Keyed := by
  unfold itemsWithin at read
  split at read
  · cases read
    simp
  · obtain ⟨⟨item, afterItem⟩, first, read⟩ := Option.bind_eq_some_iff.mp read
    have keyed := within.value first
    dsimp only at read
    split at read
    · cases read
      simpa using keyed
    · obtain ⟨⟨others, after⟩, later, ⟨⟩⟩ := Option.bind_eq_some_iff.mp read
      exact List.forall_mem_cons.mpr ⟨keyed, within.items later⟩
    · cases read

theorem pairs_succ (within : KeyedWithin bound) {pairs : List ((List String × String) × Value)}
    (read : pairsWithin (bound + 1) depth text = some (pairs, rest)) :
    ∀ pair ∈ pairs, pair.2.Keyed := by
  unfold pairsWithin at read
  obtain ⟨⟨key, afterKey⟩, -, read⟩ := Option.bind_eq_some_iff.mp read
  dsimp only at read
  split at read
  · obtain ⟨⟨value, afterValue⟩, first, read⟩ := Option.bind_eq_some_iff.mp read
    have keyed := within.value first
    dsimp only at read
    split at read
    · cases read
      simpa using keyed
    · obtain ⟨⟨others, after⟩, later, ⟨⟩⟩ := Option.bind_eq_some_iff.mp read
      exact List.forall_mem_cons.mpr ⟨keyed, within.pairs later⟩
    · cases read
  · cases read

theorem all (bound : Nat) : KeyedWithin bound := by
  induction bound with
  | zero => constructor <;> simp [valueWithin, itemsWithin, pairsWithin]
  | succ bound ih => exact ⟨ih.value_succ, ih.items_succ, ih.pairs_succ⟩

end KeyedWithin

/-! ### Documents -/

def Statement.Keyed : Statement → Prop
  | .pair _ _ value => value.Keyed
  | .header _ _ | .element _ _ => True

theorem keyed_of_statement {text rest : List Char} {made : Statement}
    (read : statement text = some (made, rest)) : made.Keyed := by
  unfold statement at read
  split at read
  · obtain ⟨_, -, read⟩ := Option.bind_eq_some_iff.mp read
    dsimp only at read
    split at read
    · obtain ⟨_, -, ⟨⟩⟩ := Option.bind_eq_some_iff.mp read
      trivial
    · cases read
  · obtain ⟨_, -, read⟩ := Option.bind_eq_some_iff.mp read
    dsimp only at read
    split at read
    · obtain ⟨_, -, ⟨⟩⟩ := Option.bind_eq_some_iff.mp read
      trivial
    · cases read
  · obtain ⟨_, -, read⟩ := Option.bind_eq_some_iff.mp read
    dsimp only at read
    split at read
    · obtain ⟨⟨value, afterValue⟩, first, read⟩ := Option.bind_eq_some_iff.mp read
      obtain ⟨_, -, ⟨⟩⟩ := Option.bind_eq_some_iff.mp read
      exact (KeyedWithin.all _).value first
    · cases read

theorem keyed_of_statementsWithin {bound : Nat} {text : List Char} {made : List Statement}
    (read : statementsWithin bound text = some made) : ∀ statement ∈ made, statement.Keyed := by
  induction bound generalizing text made with
  | zero => cases read
  | succ bound ih =>
      unfold statementsWithin at read
      split at read
      · cases read
        simp
      · obtain ⟨_, -, read⟩ := Option.bind_eq_some_iff.mp read
        exact ih read
      · split at read
        · exact ih read
        · obtain ⟨⟨first, after⟩, here, read⟩ := Option.bind_eq_some_iff.mp read
          obtain ⟨others, later, ⟨⟩⟩ := Option.bind_eq_some_iff.mp read
          exact List.forall_mem_cons.mpr ⟨keyed_of_statement here, ih later⟩

theorem Draft.keyed_of_add {draft next : Draft} {statement : Statement}
    (keyed : Entries.Keyed draft.entries) (inner : statement.Keyed)
    (added : draft.add statement = some next) : Entries.Keyed next.entries := by
  cases statement with
  | pair path key value =>
      obtain ⟨entries, made, ⟨⟩⟩ := Option.bind_eq_some_iff.mp added
      exact (Entries.keeps_defineAt inner).within _ _ _ _ keyed made
  | header path key =>
      obtain ⟨entries, made, ⟨⟩⟩ := Option.bind_eq_some_iff.mp added
      exact (Entries.keeps_openTable key).within _ _ _ _ keyed made
  | element path key =>
      obtain ⟨entries, made, ⟨⟩⟩ := Option.bind_eq_some_iff.mp added
      exact (Entries.keeps_openElement key).within _ _ _ _ keyed made

theorem Draft.keyed_of_foldlM {statements : List Statement} {last : Draft}
    (inner : ∀ statement ∈ statements, statement.Keyed)
    (added : statements.foldlM Draft.add {} = some last) : Entries.Keyed last.entries := by
  refine Runs.induct (motive := fun statements draft =>
    (∀ statement ∈ statements, statement.Keyed) → Entries.Keyed draft.entries)
    (fun _ => Entries.keyed_nil) ?_ statements added inner
  intro before draft statement next _ ih added inner
  obtain ⟨earlier, here⟩ := List.forall_mem_append.mp inner
  exact keyed_of_add (ih earlier) (here statement List.mem_cons_self) added

/-- No table of a document has a key twice. -/
theorem keyed_of_document? {text : String} {document : Entries}
    (parsed : document? text = some document) : Entries.Keyed document := by
  obtain ⟨statements, read, parsed⟩ := Option.bind_eq_some_iff.mp parsed
  obtain ⟨draft, added, ⟨⟩⟩ := Option.bind_eq_some_iff.mp parsed
  exact Draft.keyed_of_foldlM (keyed_of_statementsWithin read) added

end Leasehold.Toml
