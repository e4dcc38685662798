import OverloadTables.Document.Json
import OverloadTables.Proofs.Except

/-!
# The tables of a JSON document as data

* `Document`               what a document says of the tables;
* `Document.ofJson?`       a document read;
* `Tables.ofJson?_toJson`  the document of tables has their base types by number, their rows and
                           their blocks.
-/

namespace OverloadTables

/-- What a document says of the tables, lists in the order they have there. -/
structure Document where
  bases : List (Int × String)
  signatureTable : List Descriptor
  rows : List Row
  blocks : List Block
  deriving DecidableEq, Repr

namespace Document

/-! ## reading -/

def int? (ms : Members) (key : String) : Option Int :=
  match ms.get? key with
  | some (.int n) => some n
  | _ => none

/-- An integer that is not negative. -/
def nat? (ms : Members) (key : String) : Option Nat :=
  (int? ms key).bind fun n => if n < 0 then none else some n.toNat

def text? (ms : Members) (key : String) : Option String :=
  match ms.get? key with
  | some (.str (.text s)) => some s
  | _ => none

def bool? (ms : Members) (key : String) : Option Bool :=
  match ms.get? key with
  | some (.bool b) => some b
  | _ => none

def object? {α : Type} (read : Members → Option α) : Json → Option α
  | .obj ms => read ms
  | _ => none

/-- The items of a list of objects, each read by `read`. -/
def items? {α : Type} (read : Members → Option α) (ms : Members) (key : String) :
    Option (List α) :=
  match ms.get? key with
  | some (.arr items) => items.mapM (object? read)
  | _ => none

def base? (ms : Members) : Option (Int × String) := do
  some (← int? ms "id", ← text? ms "name")

def descriptor? (ms : Members) : Option Descriptor := do
  let space ← AddressSpace.ofSpelling? (← text? ms "addr_space")
  some ⟨← int? ms "type_id", ← int? ms "vector_width", space, ← bool? ms "is_pointer"⟩

def row? (ms : Members) : Option Row := do
  some ⟨← text? ms "name", ← nat? ms "sig_index", ← nat? ms "num_types", ← text? ms "extension",
    ← int? ms "version"⟩

def block? (ms : Members) : Option Block := do
  some ⟨← text? ms "name", ← int? ms "start", ← int? ms "count"⟩

def ofMembers? (ms : Members) : Option Document := do
  some ⟨← items? base? ms "type_ids", ← items? descriptor? ms "signature_table",
    ← items? row? ms "builtin_table", ← items? block? ms "name_index"⟩

def ofJson? : Json → Option Document := object? ofMembers?

/-! ## what is written, read back -/

theorem descriptor?_toJson (d : Descriptor) : object? descriptor? d.toJson = some d := by
  obtain ⟨base, width, space, pointer⟩ := d
  cases space <;> rfl

theorem row?_toJson (r : Row) : object? row? r.toJson = some r := rfl

theorem block?_toJson (b : Block) : object? block? b.toJson = some b := rfl

theorem items?_map {α β : Type} {write : α → Json} {read : Members → Option β} {value : α → β}
    (h : ∀ a, object? read (write a) = some (value a)) {l : List α} {ms : Members} {key : String}
    (hget : Members.get? key ms = some (.arr (l.map write))) :
    items? read ms key = some (l.map value) := by
  rw [items?, hget]
  exact mapM_map_some fun a _ => h a

theorem basesToJson_eq (i : Nat) (bases : List BaseType) :
    basesToJson i bases = (bases.zipIdx i).map fun p =>
      .obj [("id", .int p.2), ("name", .str p.1.name),
        ("qual_type", Diagnostic.textOrNull p.1.concrete)] := by
  induction bases generalizing i with
  | nil => rfl
  | cons b bases ih => rw [basesToJson, ih, List.zipIdx_cons, List.map_cons]

end Document

/-- **The document of tables says what the tables say.** -/
theorem Tables.ofJson?_toJson (t : Tables) : Document.ofJson? t.toJson
    = some ⟨t.bases.zipIdx.map fun p => ((p.2 : Int), p.1.name), t.signatureTable, t.rows,
      t.index.blocks⟩ := by
  obtain ⟨ms, hms, hbases, hsignatures, hrows, hblocks⟩ : ∃ ms, t.toJson = .obj ms ∧
      Members.get? "type_ids" ms = some (.arr (basesToJson 0 t.bases)) ∧
      Members.get? "signature_table" ms = some (.arr (t.signatureTable.map (·.toJson))) ∧
      Members.get? "builtin_table" ms = some (.arr (t.rows.map (·.toJson))) ∧
      Members.get? "name_index" ms = some (.arr (t.index.blocks.map (·.toJson))) :=
    ⟨_, rfl, rfl, rfl, rfl, rfl⟩
  rw [Document.basesToJson_eq] at hbases
  have hbase : ∀ p : BaseType × Nat, Document.object? Document.base?
      (.obj [("id", .int p.2), ("name", .str p.1.name),
        ("qual_type", Diagnostic.textOrNull p.1.concrete)]) = some ((p.2 : Int), p.1.name) :=
    fun _ => rfl
  rw [hms]
  show Document.ofMembers? ms = _
  rw [Document.ofMembers?, Document.items?_map hbase hbases,
    Document.items?_map Document.descriptor?_toJson hsignatures,
    Document.items?_map Document.row?_toJson hrows,
    Document.items?_map Document.block?_toJson hblocks, List.map_id', List.map_id', List.map_id']
  rfl

end OverloadTables
