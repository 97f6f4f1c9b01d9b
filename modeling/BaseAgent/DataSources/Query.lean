import BaseAgent.Models.JsonText
import BaseAgent.Models.Prefixes
import Mathlib.Data.Bool.AllAny

/-!
# The query tool of a data source

`data_query` returns the rows of a query where their JSON text fits the inline budget.  Otherwise it
stores them as an artifact and returns a reference, to which it adds the columns and a sample of the
rows as long as the reference fits.  The configuration bounds the name of the source in characters
and the budget in bytes.

The provider and the artifact store are parameters.
-/

namespace BaseAgent
namespace DataSources

/-- What building the tools or calling one raises; `other` is raised by the provider or the store. -/
inductive QueryError where
  | value (message : String)
  | runtime (message : String)
  | other (message : String)
  deriving DecidableEq, Repr

structure QueryLimits where
  maxTables : Int := 200
  maxRows : Int := 1000
  maxInlineBytes : Int := 64000
  maxArtifactBytes : Int := 10000000
  artifactSampleRows : Int := 20

structure DataSourceTools where
  sourceName : String
  limits : QueryLimits

def dataSourceTools (name : String) (limits : QueryLimits) : Except QueryError DataSourceTools := do
  raiseIf (limits.maxTables < 1 ∨ limits.maxTables > 1000)
    (.value "max_tables must be between 1 and 1000")
  raiseIf (limits.maxRows < 1 ∨ limits.maxRows > 10000)
    (.value "max_rows must be between 1 and 10000")
  raiseIf (limits.maxInlineBytes < 512) (.value "max_inline_bytes must be at least 512")
  raiseIf (limits.maxArtifactBytes < limits.maxInlineBytes)
    (.value "max_artifact_bytes must be at least max_inline_bytes")
  raiseIf (limits.artifactSampleRows < 0 ∨ limits.artifactSampleRows > limits.maxRows)
    (.value "artifact_sample_rows must be between 0 and max_rows")
  raiseIf (strip name = "" ∨ (strip name).length > 128)
    (.value "DataSource name must contain between 1 and 128 characters")
  return ⟨strip name, limits⟩

abbrev Row := List (String × JsonValue)

structure DataQueryResult where
  columns : List String
  rows : List Row
  totalRows : Option Nat
  hasMore : Bool
  columns_length : columns.length ≤ 2000
  rows_length : rows.length ≤ 10001
  columns_nodup : columns.Nodup
  /-- A row has each column once. -/
  rows_match : ∀ row ∈ rows, (row.map (·.1)).Perm columns
  totalRows_enough : ∀ total, totalRows = some total → rows.length ≤ total

structure ArtifactRequest where
  name : String
  mediaType : String
  content : List UInt8
  metadata : List (String × JsonValue)

structure Artifact where
  id : UUID
  name : String
  sizeBytes : Nat
  deriving DecidableEq, Repr

/-- What one call of the tool meets. -/
structure Surroundings where
  query : String → Int → Except QueryError DataQueryResult
  /-- The UUID that names the artifact. -/
  token : UUID
  create : ArtifactRequest → Except QueryError Artifact

/-- The artifacts that a call has stored, and what it returns or raises. -/
structure Answer where
  stored : List Artifact
  outcome : Except QueryError (List (String × JsonValue))

/-! ## Bounded lists -/

section Bounded

variable (p : Printing) (field truncatedField : String) (limit : Int) (total : Nat)

def setItems (payload : List (String × JsonValue)) (items : List JsonValue) :
    List (String × JsonValue) :=
  dictSet (dictSet payload field (.list items)) truncatedField
    (.bool (decide (items.length < total)))

/-- The loop of `_append_bounded_items`, with the payload and the selected items that it leaves. -/
def appendItems (payload : List (String × JsonValue)) (selected : List JsonValue) :
    List JsonValue → List (String × JsonValue) × List JsonValue
  | [] => (payload, selected)
  | item :: rest =>
    let candidate := selected ++ [item]
    let payload := setItems field truncatedField total payload candidate
    if limit < ((JsonValue.obj payload).jsonBytes p).length then (payload, selected)
    else appendItems payload candidate rest

def appendBoundedItems (payload : List (String × JsonValue)) (items : List JsonValue)
    (totalItems : Option Nat) : List (String × JsonValue) :=
  let total := totalItems.getD items.length
  let (payload, selected) := appendItems p field truncatedField limit total payload [] items
  setItems field truncatedField total payload selected

def FitsIn (payload : List (String × JsonValue)) (items : List JsonValue) : Prop :=
  (JsonValue.obj (setItems field truncatedField total payload items)).size p ≤ limit

instance (payload : List (String × JsonValue)) :
    DecidablePred (FitsIn p field truncatedField limit total payload) :=
  fun items => inferInstanceAs (Decidable
    (((JsonValue.obj (setItems field truncatedField total payload items)).size p : Int) ≤ limit))

section

variable {p field truncatedField limit total}
variable {payload base : List (String × JsonValue)} {items selected : List JsonValue}

theorem setItems_setItems (h : field ≠ truncatedField) (first second : List JsonValue) :
    setItems field truncatedField total (setItems field truncatedField total payload first) second =
      setItems field truncatedField total payload second := by
  unfold setItems
  rw [dictSet_swap h (by rw [dictGet_set_self]; simp), dictSet_dictSet, dictSet_dictSet]

/-- The loop selects the items greedily, and what it leaves in the payload does not matter. -/
theorem appendItems_eq (h : field ≠ truncatedField)
    (hpayload : ∀ items, setItems field truncatedField total payload items =
      setItems field truncatedField total base items) (items : List JsonValue) :
    (∀ shown, setItems field truncatedField total
        (appendItems p field truncatedField limit total payload selected items).1 shown =
      setItems field truncatedField total base shown) ∧
    (appendItems p field truncatedField limit total payload selected items).2 =
      greedy (FitsIn p field truncatedField limit total base) selected items := by
  induction items generalizing payload selected with
  | nil => exact ⟨hpayload, rfl⟩
  | cons item rest ih =>
    have hnext : ∀ shown, setItems field truncatedField total
        (setItems field truncatedField total payload (selected ++ [item])) shown =
          setItems field truncatedField total base shown := by
      intro shown
      rw [setItems_setItems h, hpayload]
    have hsame := hpayload (selected ++ [item])
    rw [appendItems, greedy]
    simp only [JsonValue.jsonBytes_length]
    by_cases hfits : FitsIn p field truncatedField limit total base (selected ++ [item])
    · have hsize := hfits
      rw [FitsIn, ← hsame] at hsize
      rw [if_neg (by omega), if_pos hfits]
      exact ih hnext
    · have hsize := hfits
      rw [FitsIn, ← hsame] at hsize
      rw [if_pos (by omega), if_neg hfits]
      exact ⟨hnext, rfl⟩

theorem appendBoundedItems_eq (h : field ≠ truncatedField) (payload : List (String × JsonValue))
    (items : List JsonValue) (totalItems : Option Nat) :
    appendBoundedItems p field truncatedField limit payload items totalItems =
      setItems field truncatedField (totalItems.getD items.length) payload
        (greedy (FitsIn p field truncatedField limit (totalItems.getD items.length) payload) []
          items) := by
  simp only [appendBoundedItems]
  rw [(appendItems_eq h (fun _ => rfl) items).1, (appendItems_eq h (fun _ => rfl) items).2]

/-- More items take no fewer bytes, whatever becomes of the flag. -/
theorem fitsIn_closed (hfield : dictGet payload field ≠ none)
    (hflag : dictGet payload truncatedField ≠ none) (h : field ≠ truncatedField) :
    PrefixClosed (FitsIn p field truncatedField limit total payload) := by
  intro first second hle hfits
  obtain ⟨old, hold⟩ := Option.ne_none_iff_exists'.mp hfield
  obtain ⟨flag, hflagged⟩ := Option.ne_none_iff_exists'.mp hflag
  have hsize : ∀ items : List JsonValue,
      (JsonValue.obj (setItems field truncatedField total payload items)).size p + flag.size p +
          old.size p =
        (JsonValue.obj payload).size p + (JsonValue.list items).size p +
          (JsonValue.bool (decide (items.length < total))).size p := by
    intro items
    have hset := JsonValue.size_dictSet p hold (.list items)
    have hmark := JsonValue.size_dictSet p
      (by rw [dictGet_set_ne _ h.symm]; exact hflagged :
        dictGet (dictSet payload field (.list items)) truncatedField = some flag)
      (.bool (decide (items.length < total)))
    unfold setItems
    omega
  have hitems := JsonValue.size_list_le p hle
  have hmarks : (JsonValue.bool (decide (first.length < total))).size p ≤
      (JsonValue.bool (decide (second.length < total))).size p := by
    apply JsonValue.size_bool_mono
    have hlength := hle.length_le
    rw [decide_eq_true_iff, decide_eq_true_iff]
    omega
  have hfirst := hsize first
  have hsecond := hsize second
  unfold FitsIn at hfits ⊢
  omega

end

end Bounded

/-! ## The tool -/

namespace DataSourceTools

variable (tools : DataSourceTools) (p : Printing) (env : Surroundings)

section Payloads

variable (result : DataQueryResult) (limit : Int)

def selectedRows : List Row := result.rows.take limit.toNat

def hasMore : Bool :=
  result.hasMore || decide (result.rows.length > (selectedRows result limit).length)

def totalRows : JsonValue :=
  match result.totalRows with
  | some total => .int total
  | none => .null

def payload : List (String × JsonValue) :=
  [("source", .str tools.sourceName),
    ("columns", .list (result.columns.map .str)),
    ("rows", .list ((selectedRows result limit).map .obj)),
    ("returned_row_count", .int (selectedRows result limit).length),
    ("total_rows", totalRows result),
    ("has_more", .bool (hasMore result limit)),
    ("externalized", .bool false)]

/-- `uuid4().hex[:12]`. -/
def shortHex (token : UUID) : String :=
  String.ofList (((uuidText token).toList.filter (· != '-')).take 12)

def artifactRequest (token : UUID) : ArtifactRequest where
  name := s!"data-query-{shortHex token}.json"
  mediaType := "application/json"
  content := (JsonValue.obj (payload tools result limit)).jsonBytes p
  metadata :=
    [("source", .str tools.sourceName),
      ("returned_row_count", .int (selectedRows result limit).length),
      ("has_more", .bool (hasMore result limit))]

def emptyReference (artifact : Artifact) : List (String × JsonValue) :=
  [("source", .str tools.sourceName),
    ("columns", .list []),
    ("column_count", .int result.columns.length),
    ("columns_truncated", .bool (!result.columns.isEmpty)),
    ("sample", .list []),
    ("sample_truncated", .bool (!(selectedRows result limit).isEmpty)),
    ("returned_row_count", .int (selectedRows result limit).length),
    ("total_rows", totalRows result),
    ("has_more", .bool (hasMore result limit)),
    ("externalized", .bool true),
    ("artifact_id", .uuid artifact.id),
    ("artifact_name", .str artifact.name),
    ("artifact_size_bytes", .int artifact.sizeBytes)]

def reference (artifact : Artifact) : List (String × JsonValue) :=
  let reference := appendBoundedItems p "columns" "columns_truncated" tools.limits.maxInlineBytes
    (emptyReference tools result limit artifact) (result.columns.map .str) none
  appendBoundedItems p "sample" "sample_truncated" tools.limits.maxInlineBytes reference
    (((selectedRows result limit).take tools.limits.artifactSampleRows.toNat).map .obj)
    (some (selectedRows result limit).length)

end Payloads

def dataQuery (sql : String) (limit : Int) : Answer :=
  if limit < 1 ∨ limit > tools.limits.maxRows then
    ⟨[], .error (.value s!"limit must be between 1 and {tools.limits.maxRows}")⟩
  else if isBlank sql then ⟨[], .error (.value "sql must not be blank")⟩
  else match env.query sql limit with
    | .error error => ⟨[], .error error⟩
    | .ok result =>
      let payload := tools.payload result limit
      let serialized := (JsonValue.obj payload).jsonBytes p
      if serialized.length ≤ tools.limits.maxInlineBytes then ⟨[], .ok payload⟩
      else if serialized.length > tools.limits.maxArtifactBytes then
        ⟨[], .error (.value ("bounded query result exceeds Artifact limit of " ++
          s!"{tools.limits.maxArtifactBytes} bytes"))⟩
      else match env.create (tools.artifactRequest p result limit env.token) with
        | .error error => ⟨[], .error error⟩
        | .ok artifact =>
          let reference := tools.reference p result limit artifact
          if ((JsonValue.obj reference).jsonBytes p).length > tools.limits.maxInlineBytes then
            ⟨[artifact],
              .error (.runtime "DataSource Artifact reference exceeded its configured budget")⟩
          else ⟨[artifact], .ok reference⟩

/-! ## The reference -/

section Reference

variable (result : DataQueryResult) (limit : Int) (artifact : Artifact)

/-- The reference with these columns and this sample.  A flag says that its list is shorter than the
full one. -/
def referenceWith (columns sample : List JsonValue) : List (String × JsonValue) :=
  [("source", .str tools.sourceName),
    ("columns", .list columns),
    ("column_count", .int result.columns.length),
    ("columns_truncated", .bool (decide (columns.length < result.columns.length))),
    ("sample", .list sample),
    ("sample_truncated", .bool (decide (sample.length < (selectedRows result limit).length))),
    ("returned_row_count", .int (selectedRows result limit).length),
    ("total_rows", totalRows result),
    ("has_more", .bool (hasMore result limit)),
    ("externalized", .bool true),
    ("artifact_id", .uuid artifact.id),
    ("artifact_name", .str artifact.name),
    ("artifact_size_bytes", .int artifact.sizeBytes)]

def Fits (columns sample : List JsonValue) : Prop :=
  (JsonValue.obj (tools.referenceWith result limit artifact columns sample)).size p ≤
    tools.limits.maxInlineBytes

instance (columns sample : List JsonValue) :
    Decidable (tools.Fits p result limit artifact columns sample) :=
  inferInstanceAs (Decidable (((JsonValue.obj (tools.referenceWith result limit artifact columns
    sample)).size p : Int) ≤ tools.limits.maxInlineBytes))

def shownColumns : List JsonValue :=
  greedy (fun columns => tools.Fits p result limit artifact columns []) []
    (result.columns.map .str)

def shownSample : List JsonValue :=
  greedy (tools.Fits p result limit artifact (tools.shownColumns p result limit artifact)) []
    (((selectedRows result limit).take tools.limits.artifactSampleRows.toNat).map .obj)

/-- A reference with as many columns as fit, and then as many rows of the sample. -/
def Full (out : List (String × JsonValue)) : Prop :=
  ∃ columns sample, out = tools.referenceWith result limit artifact columns sample ∧
    LongestPrefix (fun columns => tools.Fits p result limit artifact columns [])
      (result.columns.map .str) columns ∧
    LongestPrefix (tools.Fits p result limit artifact columns)
      (((selectedRows result limit).take tools.limits.artifactSampleRows.toNat).map .obj) sample

def totalBytes : Nat :=
  match result.totalRows with
  | some total => (Nat.toDigits 10 total).length
  | none => 4

def referenceBytes : Nat :=
  254 + utf8Bytes (quoteText tools.sourceName) + (Nat.toDigits 10 result.columns.length).length +
    (if result.columns = [] then 5 else 4) + (if selectedRows result limit = [] then 5 else 4) +
    (Nat.toDigits 10 (selectedRows result limit).length).length +
    totalBytes result + (if hasMore result limit then 4 else 5) + utf8Bytes (quoteText artifact.name) +
    (Nat.toDigits 10 artifact.sizeBytes).length

end Reference

section Budget

variable {tools p env}
variable {result : DataQueryResult} {limit : Int} {artifact : Artifact}
variable {columns sample : List JsonValue}

theorem emptyReference_eq :
    tools.emptyReference result limit artifact = tools.referenceWith result limit artifact [] [] := by
  have hflag : ∀ {α : Type} (items : List α), (!items.isEmpty) = decide (0 < items.length) := by
    intro α items
    cases items <;> simp
  rw [emptyReference, referenceWith, hflag, hflag]
  rfl

theorem setItems_columns (shown : List JsonValue) :
    setItems "columns" "columns_truncated" result.columns.length
        (tools.referenceWith result limit artifact columns sample) shown =
      tools.referenceWith result limit artifact shown sample := by
  simp [setItems, referenceWith, dictSet]

theorem setItems_sample (shown : List JsonValue) :
    setItems "sample" "sample_truncated" (selectedRows result limit).length
        (tools.referenceWith result limit artifact columns sample) shown =
      tools.referenceWith result limit artifact columns shown := by
  simp [setItems, referenceWith, dictSet]

theorem fitsIn_columns (shown : List JsonValue) :
    FitsIn p "columns" "columns_truncated" tools.limits.maxInlineBytes result.columns.length
        (tools.referenceWith result limit artifact columns sample) shown ↔
      tools.Fits p result limit artifact shown sample := by
  rw [FitsIn, setItems_columns, Fits]

theorem fitsIn_sample (shown : List JsonValue) :
    FitsIn p "sample" "sample_truncated" tools.limits.maxInlineBytes
        (selectedRows result limit).length
        (tools.referenceWith result limit artifact columns sample) shown ↔
      tools.Fits p result limit artifact columns shown := by
  rw [FitsIn, setItems_sample, Fits]

theorem columns_closed :
    PrefixClosed fun columns => tools.Fits p result limit artifact columns sample := by
  have hclosed : PrefixClosed (FitsIn p "columns" "columns_truncated" tools.limits.maxInlineBytes
      result.columns.length (tools.referenceWith result limit artifact [] sample)) :=
    fitsIn_closed (by simp [referenceWith, dictGet]) (by simp [referenceWith, dictGet]) (by decide)
  intro first second hle hfits
  exact (fitsIn_columns first).mp (hclosed first second hle ((fitsIn_columns second).mpr hfits))

theorem sample_closed : PrefixClosed (tools.Fits p result limit artifact columns) := by
  have hclosed : PrefixClosed (FitsIn p "sample" "sample_truncated" tools.limits.maxInlineBytes
      (selectedRows result limit).length (tools.referenceWith result limit artifact columns [])) :=
    fitsIn_closed (by simp [referenceWith, dictGet]) (by simp [referenceWith, dictGet]) (by decide)
  intro first second hle hfits
  exact (fitsIn_sample first).mp (hclosed first second hle ((fitsIn_sample second).mpr hfits))

theorem reference_eq :
    tools.reference p result limit artifact =
      tools.referenceWith result limit artifact (tools.shownColumns p result limit artifact)
        (tools.shownSample p result limit artifact) := by
  have hcolumns : greedy (FitsIn p "columns" "columns_truncated" tools.limits.maxInlineBytes
      result.columns.length (tools.referenceWith result limit artifact [] [])) []
        (result.columns.map .str) = tools.shownColumns p result limit artifact :=
    greedy_congr fitsIn_columns _ _
  have hsample : greedy (FitsIn p "sample" "sample_truncated" tools.limits.maxInlineBytes
      (selectedRows result limit).length (tools.referenceWith result limit artifact
        (tools.shownColumns p result limit artifact) [])) []
        (((selectedRows result limit).take tools.limits.artifactSampleRows.toNat).map .obj) =
          tools.shownSample p result limit artifact :=
    greedy_congr fitsIn_sample _ _
  rw [reference, appendBoundedItems_eq (by decide), appendBoundedItems_eq (by decide),
    emptyReference_eq]
  simp only [Option.getD_none, Option.getD_some, List.length_map]
  rw [hcolumns, setItems_columns, hsample, setItems_sample]

/-- Where the reference without columns and sample fits, the one that is returned is full. -/
theorem reference_full (h : tools.Fits p result limit artifact [] []) :
    tools.Full p result limit artifact (tools.reference p result limit artifact) := by
  have hcolumns := greedy_longest (columns_closed (p := p)) h (result.columns.map .str)
  exact ⟨_, _, reference_eq, hcolumns, greedy_longest sample_closed hcolumns.passes _⟩

theorem reference_exceeds (h : ¬ tools.Fits p result limit artifact [] []) :
    tools.limits.maxInlineBytes <
      (JsonValue.obj (tools.reference p result limit artifact)).size p := by
  have hcolumns : ¬ tools.Fits p result limit artifact
      (tools.shownColumns p result limit artifact) [] := columns_closed.refuses h
  have hsample : ¬ tools.Fits p result limit artifact (tools.shownColumns p result limit artifact)
      (tools.shownSample p result limit artifact) := sample_closed.refuses hcolumns
  rw [reference_eq]
  unfold Fits at hsample
  omega

theorem totalRows_bytes : (totalRows result).size p = totalBytes result := by
  unfold totalRows totalBytes
  cases result.totalRows with
  | none => rfl
  | some total => exact JsonValue.size_natural p total

theorem payload_bytes :
    (JsonValue.obj (tools.payload result limit)).size p =
      99 + utf8Bytes (quoteText tools.sourceName) +
        (JsonValue.list (result.columns.map .str)).size p +
        (JsonValue.list ((selectedRows result limit).map .obj)).size p +
        (Nat.toDigits 10 (selectedRows result limit).length).length + totalBytes result +
        (if hasMore result limit then 4 else 5) := by
  have hkeys : ["source", "columns", "rows", "returned_row_count", "total_rows", "has_more",
      "externalized"].map (fun key => utf8Bytes (quoteText key)) =
      [8, 9, 6, 20, 12, 10, 14] := by decide
  have hname : (JsonValue.str tools.sourceName).size p = utf8Bytes (quoteText tools.sourceName) := rfl
  simp only [List.map_cons, List.map_nil, List.cons.injEq, and_true] at hkeys
  rw [JsonValue.size_obj, payload]
  simp only [List.map_cons, List.map_nil, List.sum_cons, List.sum_nil, List.length_cons,
    List.length_nil, JsonValue.fieldSize, JsonValue.size_natural, JsonValue.size_bool, hkeys,
    totalRows_bytes, hname, Bool.false_eq_true, if_false]
  omega

theorem referenceWith_bytes :
    (JsonValue.obj (tools.referenceWith result limit artifact [] [])).size p =
      tools.referenceBytes result limit artifact := by
  have hkeys : ["source", "columns", "column_count", "columns_truncated", "sample",
      "sample_truncated", "returned_row_count", "total_rows", "has_more", "externalized",
      "artifact_id", "artifact_name", "artifact_size_bytes"].map
        (fun key => utf8Bytes (quoteText key)) =
      [8, 9, 14, 19, 8, 18, 20, 12, 10, 14, 13, 15, 21] := by decide
  have hlists : (JsonValue.list []).size p = 2 := rfl
  have hcolumns : (decide (0 < result.columns.length) = true) ↔ ¬ result.columns = [] := by
    rw [decide_eq_true_iff, List.length_pos_iff]
  have hrows : (decide (0 < (selectedRows result limit).length) = true) ↔
      ¬ selectedRows result limit = [] := by
    rw [decide_eq_true_iff, List.length_pos_iff]
  have hname : (JsonValue.str tools.sourceName).size p = utf8Bytes (quoteText tools.sourceName) := rfl
  have hartifact : (JsonValue.str artifact.name).size p = utf8Bytes (quoteText artifact.name) := rfl
  simp only [List.map_cons, List.map_nil, List.cons.injEq, and_true] at hkeys
  rw [JsonValue.size_obj, referenceWith, referenceBytes]
  simp only [List.map_cons, List.map_nil, List.sum_cons, List.sum_nil, List.length_cons,
    List.length_nil, JsonValue.fieldSize, JsonValue.size_natural, JsonValue.size_uuid,
    JsonValue.size_bool, hkeys, hlists, totalRows_bytes, hcolumns, hrows, hname, hartifact, ite_not, if_true]
  omega

end Budget

/-! ## The inline budget -/

section Calls

variable {tools p env}
variable {name sql : String} {limits : QueryLimits} {limit : Int}
variable {result : DataQueryResult} {artifact : Artifact}

theorem dataSourceTools_ok (h : dataSourceTools name limits = .ok tools) :
    tools = ⟨strip name, limits⟩ ∧ 512 ≤ limits.maxInlineBytes ∧ limits.maxRows ≤ 10000 ∧
      (strip name).length ≤ 128 := by
  simp only [dataSourceTools, Except.bind_ok, raiseIf_ok, exists_and_left, exists_const] at h
  obtain ⟨-, hrows, hinline, -, -, hname, hreturn⟩ := h
  cases hreturn
  exact ⟨rfl, by omega, by omega, by omega⟩

theorem dataQuery_inline (hlimit : 1 ≤ limit ∧ limit ≤ tools.limits.maxRows)
    (hsql : isBlank sql = false) (hquery : env.query sql limit = .ok result)
    (h : (JsonValue.obj (tools.payload result limit)).size p ≤ tools.limits.maxInlineBytes) :
    tools.dataQuery p env sql limit = ⟨[], .ok (tools.payload result limit)⟩ := by
  rw [dataQuery, if_neg (by omega), hsql, if_neg Bool.false_ne_true]
  simp only [hquery, JsonValue.jsonBytes_length]
  rw [if_pos h]

theorem dataQuery_stored (hlimit : 1 ≤ limit ∧ limit ≤ tools.limits.maxRows)
    (hsql : isBlank sql = false) (hquery : env.query sql limit = .ok result)
    (hinline : tools.limits.maxInlineBytes < (JsonValue.obj (tools.payload result limit)).size p)
    (hsize : (JsonValue.obj (tools.payload result limit)).size p ≤ tools.limits.maxArtifactBytes)
    (hcreate : env.create (tools.artifactRequest p result limit env.token) = .ok artifact) :
    tools.dataQuery p env sql limit =
      ⟨[artifact],
        if tools.referenceBytes result limit artifact ≤ tools.limits.maxInlineBytes then
          .ok (tools.reference p result limit artifact)
        else .error (.runtime "DataSource Artifact reference exceeded its configured budget")⟩ := by
  rw [dataQuery, if_neg (by omega), hsql, if_neg Bool.false_ne_true]
  simp only [hquery, hcreate, JsonValue.jsonBytes_length]
  rw [if_neg (by omega), if_neg (by omega)]
  by_cases hfits : tools.Fits p result limit artifact [] []
  · have hbytes := hfits
    rw [Fits, referenceWith_bytes] at hbytes
    obtain ⟨columns, sample, hout, -, hsample⟩ := reference_full hfits
    have hpasses := hsample.passes
    rw [Fits, ← hout] at hpasses
    rw [if_neg (by omega), if_pos hbytes]
  · have hbytes := hfits
    rw [Fits, referenceWith_bytes] at hbytes
    have hexceeds := reference_exceeds hfits
    rw [if_pos (by omega), if_neg hbytes]

/-- A call answers within the inline budget exactly when the payload fits it, or a reference that
shows nothing does. -/
theorem dataQuery_within_budget_iff (htools : dataSourceTools name limits = .ok tools)
    (hlimit : 1 ≤ limit ∧ limit ≤ limits.maxRows) (hsql : isBlank sql = false)
    (hquery : env.query sql limit = .ok result)
    (hsize : (JsonValue.obj (tools.payload result limit)).size p ≤ limits.maxArtifactBytes)
    (hcreate : env.create (tools.artifactRequest p result limit env.token) = .ok artifact) :
    (∃ out, (tools.dataQuery p env sql limit).outcome = .ok out ∧
      (JsonValue.obj out).size p ≤ limits.maxInlineBytes ∧
      (dictGet out "externalized" = some (.bool true) →
        tools.Full p result limit artifact out)) ↔
    ((JsonValue.obj (tools.payload result limit)).size p ≤ limits.maxInlineBytes ∨
      tools.referenceBytes result limit artifact ≤ limits.maxInlineBytes) := by
  obtain ⟨rfl, -⟩ := dataSourceTools_ok htools
  by_cases hinline :
      (JsonValue.obj (payload ⟨strip name, limits⟩ result limit)).size p ≤ limits.maxInlineBytes
  · rw [dataQuery_inline hlimit hsql hquery hinline]
    have hflag : dictGet (payload ⟨strip name, limits⟩ result limit) "externalized" =
        some (.bool false) := by
      simp [payload, dictGet]
    exact iff_of_true ⟨_, rfl, hinline, fun htrue => by simp [hflag] at htrue⟩ (.inl hinline)
  · have hlarge : limits.maxInlineBytes <
        (JsonValue.obj (payload ⟨strip name, limits⟩ result limit)).size p := by omega
    rw [dataQuery_stored hlimit hsql hquery hlarge hsize hcreate, or_iff_right hinline]
    by_cases hbytes : referenceBytes ⟨strip name, limits⟩ result limit artifact ≤
        limits.maxInlineBytes
    · have hfits : Fits ⟨strip name, limits⟩ p result limit artifact [] [] := by
        rw [Fits, referenceWith_bytes]
        exact hbytes
      have hfull := reference_full hfits
      obtain ⟨columns, sample, hout, -, hsample⟩ := id hfull
      have hpasses := hsample.passes
      rw [Fits, ← hout] at hpasses
      rw [if_pos hbytes]
      exact iff_of_true ⟨_, rfl, hpasses, fun _ => hfull⟩ hbytes
    · rw [if_neg hbytes]
      exact iff_of_false (fun hfits => by cases hfits.choose_spec.1) hbytes

theorem artifactRequest_name_plain (token : UUID) :
    (∀ c ∈ (tools.artifactRequest p result limit token).name.toList, Plain c) ∧
      (tools.artifactRequest p result limit token).name.toList.length ≤ 28 := by
  have hname : (tools.artifactRequest p result limit token).name.toList =
      "data-query-".toList ++ (((uuidText token).toList.filter (· != '-')).take 12 ++
        ".json".toList) := by
    show ("data-query-" ++ shortHex token ++ ".json").toList = _
    simp only [String.toList_append, shortHex, String.toList_ofList, List.append_assoc]
  have hstart : ∀ c ∈ "data-query-".toList, Plain c := List.all_iff_forall_prop.mp (by decide)
  have hend : ∀ c ∈ ".json".toList, Plain c := List.all_iff_forall_prop.mp (by decide)
  rw [hname]
  constructor
  · intro c hc
    rcases List.mem_append.mp hc with hc | hc
    · exact hstart c hc
    rcases List.mem_append.mp hc with hc | hc
    · exact uuidText_plain token c (List.mem_of_mem_filter (List.mem_of_mem_take hc))
    · exact hend c hc
  · have hstartLength : "data-query-".toList.length = 11 := by decide
    have hendLength : ".json".toList.length = 5 := by decide
    rw [List.length_append, List.length_append, List.length_take]
    omega

/-- The reference fits the smallest budget where the name of the source needs no more bytes than
characters. -/
theorem referenceBytes_le_of_plain (htools : dataSourceTools name limits = .ok tools)
    (hlimit : 1 ≤ limit ∧ limit ≤ limits.maxRows) (hname : ∀ c ∈ (strip name).toList, Plain c)
    (hartifact : artifact.name = (tools.artifactRequest p result limit env.token).name)
    (hsize : artifact.sizeBytes < 10 ^ 37)
    (htotal : ∀ total, result.totalRows = some total → total < 10 ^ 37) :
    tools.referenceBytes result limit artifact ≤ 512 := by
  have hdigits : ∀ k n, n < 10 ^ (k + 1) → (Nat.toDigits 10 n).length ≤ k + 1 :=
    fun k n h => (Nat.length_toDigits_le_iff (by omega) (by omega)).mpr h
  obtain ⟨rfl, -, hrows, hlength⟩ := dataSourceTools_ok htools
  have hsource := quoteText_plain hname
  have hplain : (∀ c ∈ artifact.name.toList, Plain c) ∧ artifact.name.toList.length ≤ 28 := by
    rw [hartifact]
    exact artifactRequest_name_plain env.token
  have hquoted := quoteText_plain hplain.1
  have hchars : (strip name).toList.length ≤ 128 := by rwa [String.length_toList]
  have hselected : (selectedRows result limit).length ≤ 10000 := by
    rw [selectedRows, List.length_take]
    omega
  have hcolumns := hdigits 3 result.columns.length (by have := result.columns_length; omega)
  have hcount := hdigits 4 (selectedRows result limit).length (by omega)
  have hbytes := hdigits 36 artifact.sizeBytes hsize
  have hrest : totalBytes result ≤ 37 := by
    unfold totalBytes
    split
    · rename_i total hcase
      exact hdigits 36 total (htotal total hcase)
    · omega
  have hflag : ∀ (c : Prop) [Decidable c], (if c then 5 else 4) ≤ 5 := by
    intro c _
    split <;> omega
  have hflags := hflag (result.columns = [])
  have hflags' := hflag (selectedRows result limit = [])
  have hmore : (if hasMore result limit then 4 else 5) ≤ 5 := by split <;> omega
  have hplainLength := hplain.2
  show 254 + utf8Bytes (quoteText (strip name)) + _ + _ + _ + _ + _ + _ + _ + _ ≤ 512
  omega

end Calls

section Warehouse

def keep (request : ArtifactRequest) : Artifact := ⟨0, request.name, request.content.length⟩

def warehouse (result : DataQueryResult) : Surroundings where
  query _ _ := .ok result
  token := 0x0123456789abcdef0123456789abcdef
  create request := .ok (keep request)

def noPrinting : Printing := ⟨fun _ => "0.0", fun _ => ""⟩

def notes : DataQueryResult where
  columns := ["note"]
  rows := [[("note", .str (String.ofList (List.replicate 600 'x')))]]
  totalRows := none
  hasMore := false
  columns_length := by decide
  rows_length := by decide
  columns_nodup := by decide
  rows_match := by decide
  totalRows_enough _ h := by cases h

def nothing : DataQueryResult where
  columns := []
  rows := []
  totalRows := none
  hasMore := false
  columns_length := by decide
  rows_length := by decide
  columns_nodup := by decide
  rows_match := by decide
  totalRows_enough _ h := by cases h

def small (name : String) : DataSourceTools := ⟨name, { maxInlineBytes := 512 }⟩

theorem notes_bytes :
    (JsonValue.obj ((small "notes").payload notes 10)).size noPrinting = 737 := by
  have hkey : utf8Bytes (quoteText "note") = 6 := by decide
  have hname : utf8Bytes (quoteText "notes") = 7 := by decide
  have hcolumns : (JsonValue.list (notes.columns.map .str)).size noPrinting = 8 := by decide
  -- For any text, since the kernel would compute the size of the long one.
  have hany : ∀ text, (JsonValue.list [.obj [("note", .str text)]]).size noPrinting =
      11 + utf8Bytes (quoteText text) := by
    intro text
    have htext : (JsonValue.str text).size noPrinting = utf8Bytes (quoteText text) := rfl
    simp only [JsonValue.size_list, JsonValue.size_obj, List.map_cons, List.map_nil, List.sum_cons,
      List.sum_nil, List.length_cons, List.length_nil, JsonValue.fieldSize, htext, hkey]
    omega
  have hrow : (JsonValue.list ((selectedRows notes 10).map .obj)).size noPrinting = 613 := by
    have hrows : (selectedRows notes 10).map JsonValue.obj =
        [.obj [("note", .str (String.ofList (List.replicate 600 'x')))]] := rfl
    rw [hrows, hany, quoteText_replicate (by decide)]
    rfl
  have hcount : (Nat.toDigits 10 (selectedRows notes 10).length).length = 1 := rfl
  have htotal : totalBytes notes = 4 := rfl
  have hmore : (if hasMore notes 10 then 4 else 5) = 5 := rfl
  rw [payload_bytes, hcolumns, hrow, hcount, htotal, hmore]
  show 99 + utf8Bytes (quoteText "notes") + _ + _ + _ + _ + _ = _
  rw [hname]

/-- The call stores the 737 bytes of its payload and answers with a reference. -/
theorem notes_within_budget :
    ∃ out, ((small "notes").dataQuery noPrinting (warehouse notes) "SELECT note" 10).outcome =
        .ok out ∧ (JsonValue.obj out).size noPrinting ≤ (512 : Int) ∧
      (dictGet out "externalized" = some (.bool true) →
        (small "notes").Full noPrinting notes 10
          (keep ((small "notes").artifactRequest noPrinting notes 10 (warehouse notes).token)) out) := by
  have htools : dataSourceTools " notes " { maxInlineBytes := 512 } = .ok (small "notes") := rfl
  have hstored : (keep ((small "notes").artifactRequest noPrinting notes 10
      (warehouse notes).token)).sizeBytes = 737 := by
    rw [keep, artifactRequest, JsonValue.jsonBytes_length, notes_bytes]
  have hplain : ∀ c ∈ (strip " notes ").toList, Plain c := by
    have hstrip : strip " notes " = "notes" := rfl
    rw [hstrip]
    exact List.all_iff_forall_prop.mp (by decide)
  have hbytes : (small "notes").referenceBytes notes 10 (keep ((small "notes").artifactRequest
      noPrinting notes 10 (warehouse notes).token)) ≤ 512 :=
    referenceBytes_le_of_plain (p := noPrinting) htools (by decide) hplain rfl
      (by rw [hstored]; omega) (fun _ h => by cases h)
  exact (dataQuery_within_budget_iff htools (by decide) (by decide) rfl (by rw [notes_bytes]; decide)
    rfl).mpr (.inr (Int.ofNat_le.mpr hbytes))

theorem strip_replicate {c : Char} (hc : isSpace c = false) (n : Nat) :
    strip (String.ofList (List.replicate n c)) = String.ofList (List.replicate n c) := by
  have hdrop : (List.replicate n c).dropWhile isSpace = List.replicate n c := by
    cases n with
    | zero => rfl
    | succ n => rw [List.replicate_succ, List.dropWhile_cons_of_neg (by simp [hc])]
  rw [strip, String.toList_ofList, hdrop, List.reverse_replicate, hdrop, List.reverse_replicate]

theorem nothing_exceeds {name : String} (h : 512 < utf8Bytes (quoteText name))
    (hle : utf8Bytes (quoteText name) ≤ 1000) :
    (JsonValue.obj ((small name).payload nothing 10)).size noPrinting ≤
        (small name).limits.maxArtifactBytes ∧
      (small name).dataQuery noPrinting (warehouse nothing) "SELECT note" 10 =
        ⟨[keep ((small name).artifactRequest noPrinting nothing 10 (warehouse nothing).token)],
          .error (.runtime "DataSource Artifact reference exceeded its configured budget")⟩ := by
  have hempty : (JsonValue.list []).size noPrinting = 2 := rfl
  have hrest : (Nat.toDigits 10 (selectedRows nothing 10).length).length = 1 ∧
      totalBytes nothing = 4 ∧ (if hasMore nothing 10 then 4 else 5) = 5 := ⟨rfl, rfl, rfl⟩
  have hsize : (JsonValue.obj ((small name).payload nothing 10)).size noPrinting =
      113 + utf8Bytes (quoteText name) := by
    rw [payload_bytes, hrest.1, hrest.2.1, hrest.2.2]
    show 99 + utf8Bytes (quoteText name) + (JsonValue.list []).size noPrinting +
      (JsonValue.list []).size noPrinting + 1 + 4 + 5 = _
    rw [hempty]
    omega
  have hinline : (small name).limits.maxInlineBytes = 512 := rfl
  have hartifact : (small name).limits.maxArtifactBytes = 10000000 := rfl
  have hbytes : utf8Bytes (quoteText name) ≤ (small name).referenceBytes nothing 10
      (keep ((small name).artifactRequest noPrinting nothing 10 (warehouse nothing).token)) := by
    show _ ≤ 254 + utf8Bytes (quoteText name) + _ + _ + _ + _ + _ + _ + _ + _
    omega
  have hrows : (small name).limits.maxRows = 1000 := rfl
  have hblank : isBlank "SELECT note" = false := by decide
  rw [dataQuery_stored ⟨by decide, by omega⟩ hblank rfl (by omega) (by omega) rfl,
    if_neg (by omega)]
  exact ⟨by omega, rfl⟩

theorem wide_exceeds {c : Char} {count : Nat} (hescape : escapeChar c = [c])
    (hspace : isSpace c = false) (hbytes : c.utf8Size = 4) (hcount : count = 128) :
    ∃ name tools, name = String.ofList (List.replicate count c) ∧
      dataSourceTools name { maxInlineBytes := 512 } = .ok tools ∧
      (JsonValue.obj (tools.payload nothing 10)).size noPrinting ≤ tools.limits.maxArtifactBytes ∧
      (tools.dataQuery noPrinting (warehouse nothing) "SELECT note" 10).stored.length = 1 ∧
      (tools.dataQuery noPrinting (warehouse nothing) "SELECT note" 10).outcome =
        .error (.runtime "DataSource Artifact reference exceeded its configured budget") := by
  obtain ⟨name, hname⟩ : ∃ name, name = String.ofList (List.replicate count c) := ⟨_, rfl⟩
  have hquoted : utf8Bytes (quoteText name) = 514 := by
    rw [hname, quoteText_replicate hescape, hbytes, hcount]
  have hstrip : strip name = name := by rw [hname, strip_replicate hspace]
  have hlength : name.length = 128 := by
    rw [hname, String.length_ofList, List.length_replicate, hcount]
  have hnonempty : name ≠ "" := by
    intro hempty
    rw [hempty] at hlength
    cases hlength
  have hexceeds := @nothing_exceeds name (by omega) (by omega)
  refine ⟨name, small name, hname, ?_, hexceeds.1, by rw [hexceeds.2]; rfl, by rw [hexceeds.2]⟩
  simp [dataSourceTools, raiseIf, hstrip, hlength, hnonempty, small, bind, Except.bind, pure,
    Except.pure]

theorem chart_name_exceeds :
    ∃ name tools, name = String.ofList (List.replicate 128 '📊') ∧
      dataSourceTools name { maxInlineBytes := 512 } = .ok tools ∧
      (JsonValue.obj (tools.payload nothing 10)).size noPrinting ≤ tools.limits.maxArtifactBytes ∧
      (tools.dataQuery noPrinting (warehouse nothing) "SELECT note" 10).stored.length = 1 ∧
      (tools.dataQuery noPrinting (warehouse nothing) "SELECT note" 10).outcome =
        .error (.runtime "DataSource Artifact reference exceeded its configured budget") :=
  wide_exceeds (by simp [escapeChar]) (by simp [isSpace]) rfl rfl

end Warehouse

end DataSourceTools

end DataSources
end BaseAgent
