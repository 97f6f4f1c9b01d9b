import BaseAgent.DataSources.Query
import BaseAgent.Models.JsonReading

/-!
# The document behind an answer

The answer of `data_query` is the result itself or a reference to an artifact.  Either tells the
columns of the query result, its rows as far as the limit, and whether there are more.  The artifact
holds one JSON document that tells them, and the reference agrees with that document: it shows the
first of its columns and rows, and counts the others (`dataQuery_document`).
-/

namespace BaseAgent
namespace DataSources

open DataSourceTools JsonValue

/-- The rows of a result have texts that are read back, and so has its total. -/
def ReadableResult (p : Printing) (float : FloatReading) (result : DataQueryResult) : Prop :=
  (∀ row ∈ result.rows, Readable p float (.obj row)) ∧
    ∀ total : Nat, result.totalRows = some total → Writable total

/-- What the fields tell of a query result.  The rows are as `form` makes them. -/
structure Tells (source : String) (result : DataQueryResult) (limit : Int)
    (form : JsonValue → JsonValue) (fields : List (String × JsonValue)) : Prop where
  source : dictGet fields "source" = some (.str source)
  columns : dictGet fields "columns" = some (.list (result.columns.map .str))
  rows : ∃ rows : List Row, rows <+: result.rows ∧
    (rows.length : Int) = min limit result.rows.length ∧
    dictGet fields "rows" = some (.list (rows.map fun row => form (.obj row))) ∧
    dictGet fields "returned_row_count" = some (.int rows.length) ∧
    dictGet fields "has_more" =
      some (.bool (result.hasMore || decide (rows.length < result.rows.length)))
  total : ∀ total : Nat, result.totalRows = some total →
    dictGet fields "total_rows" = some (.int total)
  noTotal : result.totalRows = none → dictGet fields "total_rows" = some .null

/-- What a reference to an artifact shows of the document in it. -/
structure Shows (p : Printing) (document : List (String × JsonValue)) (artifact : Artifact)
    (reference : List (String × JsonValue)) : Prop where
  columns : ∃ all shown, dictGet document "columns" = some (.list all) ∧
    dictGet reference "columns" = some (.list shown) ∧ shown <+: all ∧
    dictGet reference "column_count" = some (.int all.length) ∧
    dictGet reference "columns_truncated" = some (.bool (decide (shown.length < all.length)))
  rows : ∃ all sample, dictGet document "rows" = some (.list all) ∧
    dictGet reference "sample" = some (.list sample) ∧ sample.map (texts p) <+: all ∧
    dictGet reference "returned_row_count" = some (.int all.length) ∧
    dictGet reference "sample_truncated" = some (.bool (decide (sample.length < all.length)))
  same : ∀ key ∈ ["source", "returned_row_count", "total_rows", "has_more"],
    dictGet document key = dictGet reference key
  named : dictGet reference "artifact_id" = some (.uuid artifact.id) ∧
    dictGet reference "artifact_name" = some (.str artifact.name) ∧
    dictGet reference "artifact_size_bytes" = some (.int artifact.sizeBytes)

section Document

variable {tools : DataSourceTools} {p : Printing} {float : FloatReading} {env : Surroundings}
variable {sql : String} {limit : Int} {result : DataQueryResult} {artifact : Artifact}

theorem writable_of_lt {n : Nat} (h : n < 100000) : Writable n := by
  show (Nat.toDigits 10 n).length ≤ maxStrDigits
  have hfive : (Nat.toDigits 10 n).length ≤ 5 :=
    (Nat.length_toDigits_le_iff (by omega) (by omega)).mpr h
  exact hfive.trans (by decide)

theorem readable_totalRows (h : ReadableResult p float result) :
    Readable p float (totalRows result) := by
  unfold totalRows
  cases htotal : result.totalRows with
  | none => exact .null
  | some total => exact .int (h.2 total htotal)

theorem readable_payload (h : ReadableResult p float result) :
    Readable p float (.obj (tools.payload result limit)) := by
  have hrows : ∀ row ∈ (selectedRows result limit).map JsonValue.obj, Readable p float row := by
    intro value hvalue
    obtain ⟨row, hrow, rfl⟩ := List.mem_map.mp hvalue
    exact h.1 row (List.mem_of_mem_take hrow)
  have hcolumns : ∀ column ∈ result.columns.map JsonValue.str, Readable p float column := by
    intro value hvalue
    obtain ⟨column, -, rfl⟩ := List.mem_map.mp hvalue
    exact .str column
  have hcount : (selectedRows result limit).length < 100000 := by
    have hlength := result.rows_length
    have htake : (selectedRows result limit).length ≤ result.rows.length := List.length_take_le' _ _
    omega
  have hkeys : (tools.payload result limit).map (·.1) =
      ["source", "columns", "rows", "returned_row_count", "total_rows", "has_more",
        "externalized"] := rfl
  refine .obj (by rw [hkeys]; decide) ?_
  simp only [payload, List.forall_mem_cons, List.not_mem_nil, false_implies, implies_true, and_true]
  exact ⟨.str _, .list hcolumns, .list hrows, .int (writable_of_lt hcount), readable_totalRows h,
    .bool _, .bool _⟩

theorem dataQuery_ok {stored : List Artifact} {out : List (String × JsonValue)}
    (h : tools.dataQuery p env sql limit = ⟨stored, .ok out⟩) :
    1 ≤ limit ∧ limit ≤ tools.limits.maxRows ∧ ∃ result, env.query sql limit = .ok result ∧
      ((stored = [] ∧ out = tools.payload result limit) ∨
        ∃ artifact, stored = [artifact] ∧
          env.create (tools.artifactRequest p result limit env.token) = .ok artifact ∧
          out = tools.reference p result limit artifact ∧
          tools.Fits p result limit artifact [] []) := by
  unfold dataQuery at h
  by_cases hlimit : limit < 1 ∨ limit > tools.limits.maxRows
  · rw [if_pos hlimit] at h
    cases h
  rw [if_neg hlimit] at h
  by_cases hsql : isBlank sql = true
  · rw [if_pos hsql] at h
    cases h
  rw [if_neg hsql] at h
  refine ⟨by omega, by omega, ?_⟩
  cases hquery : env.query sql limit with
  | error e =>
    rw [hquery] at h
    cases h
  | ok result =>
    simp only [hquery] at h
    refine ⟨result, rfl, ?_⟩
    split at h
    · cases h
      exact .inl ⟨rfl, rfl⟩
    · split at h
      · cases h
      · cases hcreate : env.create (tools.artifactRequest p result limit env.token) with
        | error e =>
          rw [hcreate] at h
          cases h
        | ok artifact =>
          simp only [hcreate] at h
          split at h
          · cases h
          · rename_i hfits
            cases h
            refine .inr ⟨artifact, rfl, rfl, rfl, ?_⟩
            by_contra hnot
            have hexceeds := reference_exceeds hnot
            rw [jsonBytes_length] at hfits
            omega

theorem shows_referenceWith {columns sample : List JsonValue}
    (hcolumns : columns <+: result.columns.map .str)
    (hsample : sample <+: ((selectedRows result limit).take tools.limits.artifactSampleRows.toNat).map
      .obj) :
    Shows p (textFields p (tools.payload result limit)) artifact
      (tools.referenceWith result limit artifact columns sample) := by
  have hnames : (result.columns.map JsonValue.str).map (texts p) = result.columns.map .str := by
    rw [List.map_map]
    rfl
  have htotal : texts p (totalRows result) = totalRows result := by
    unfold totalRows
    cases result.totalRows <;> rfl
  have htake : sample.map (texts p) <+:
      ((selectedRows result limit).map JsonValue.obj).map (texts p) := by
    refine List.IsPrefix.map _ (hsample.trans ?_)
    rw [List.map_take]
    exact List.take_prefix _ _
  constructor
  · refine ⟨result.columns.map .str, columns, ?_, ?_, hcolumns, ?_, ?_⟩
    · simp [payload, textFields, texts, textItems_eq, dictGet]
    all_goals simp [referenceWith, dictGet]
  · refine ⟨((selectedRows result limit).map JsonValue.obj).map (texts p), sample, ?_, ?_, htake,
      ?_, ?_⟩
    · simp [payload, textFields, texts, textItems_eq, dictGet]
    all_goals simp [referenceWith, dictGet]
  · intro key hkey
    simp only [List.mem_cons, List.not_mem_nil, or_false] at hkey
    rcases hkey with rfl | rfl | rfl | rfl
    · simp [payload, textFields, texts, referenceWith, dictGet]
    · simp [payload, textFields, texts, referenceWith, dictGet]
    · simp [payload, textFields, texts, htotal, referenceWith, dictGet]
    · simp [payload, textFields, texts, referenceWith, dictGet]
  · simp [referenceWith, dictGet]

theorem selectedRows_length (hlimit : 1 ≤ limit) :
    ((selectedRows result limit).length : Int) = min limit result.rows.length := by
  unfold selectedRows
  rw [List.length_take]
  omega

theorem hasMore_eq :
    hasMore result limit =
      (result.hasMore || decide ((selectedRows result limit).length < result.rows.length)) := rfl

theorem tells_payload (hlimit : 1 ≤ limit) :
    Tells tools.sourceName result limit id (tools.payload result limit) := by
  have htake : selectedRows result limit <+: result.rows := List.take_prefix _ _
  constructor
  · simp [payload, dictGet]
  · simp [payload, dictGet]
  · refine ⟨selectedRows result limit, htake, selectedRows_length hlimit, ?_, ?_, ?_⟩
    · simp [payload, dictGet]
    · simp [payload, dictGet]
    · simp [payload, dictGet, hasMore_eq]
  · intro total htotal
    simp [payload, dictGet, totalRows, htotal]
  · intro htotal
    simp [payload, dictGet, totalRows, htotal]

theorem tells_textFields (hlimit : 1 ≤ limit) :
    Tells tools.sourceName result limit (texts p) (textFields p (tools.payload result limit)) := by
  have htake : selectedRows result limit <+: result.rows := List.take_prefix _ _
  constructor
  · simp [payload, textFields, texts, dictGet]
  · simp [payload, textFields, texts, textItems_eq, dictGet]
  · refine ⟨selectedRows result limit, htake, selectedRows_length hlimit, ?_, ?_, ?_⟩
    · simp [payload, textFields, texts, textItems_eq, dictGet]
    · simp [payload, textFields, texts, dictGet]
    · simp [payload, textFields, texts, dictGet, hasMore_eq]
  · intro total htotal
    simp [payload, textFields, texts, dictGet, totalRows, htotal]
  · intro htotal
    simp [payload, textFields, texts, dictGet, totalRows, htotal]

/-- The tool answers with what the query found.  It returns that itself, or stores it as one JSON
document and returns a reference that agrees with the document. -/
theorem dataQuery_document (hread : ∀ result, env.query sql limit = .ok result →
    ReadableResult p float result) {stored : List Artifact} {out : List (String × JsonValue)}
    (h : tools.dataQuery p env sql limit = ⟨stored, .ok out⟩) :
    ∃ result text document, env.query sql limit = .ok result ∧
      loads float text = .ok (.obj document) ∧
      Tells tools.sourceName result limit (texts p) document ∧
      ((stored = [] ∧ text = compact p (.obj out) ∧
          Tells tools.sourceName result limit id out) ∨
        ∃ artifact request, stored = [artifact] ∧ env.create request = .ok artifact ∧
          request.content = encodeUtf8 text ∧ Shows p document artifact out) := by
  obtain ⟨hlimit, -, result, hquery, hcases⟩ := dataQuery_ok h
  refine ⟨result, compact p (.obj (tools.payload result limit)),
    textFields p (tools.payload result limit), hquery,
    loads_compact (readable_payload (hread result hquery)), tells_textFields hlimit, ?_⟩
  cases hcases with
  | inl hinline =>
    obtain ⟨hstored, hout⟩ := hinline
    rw [hout]
    exact .inl ⟨hstored, rfl, tells_payload hlimit⟩
  | inr hstored =>
    obtain ⟨artifact, hstored, hcreate, hout, hfits⟩ := hstored
    obtain ⟨columns, sample, hreference, hcolumns, hsample⟩ := reference_full hfits
    refine .inr ⟨artifact, _, hstored, hcreate, rfl, ?_⟩
    rw [hout, hreference]
    exact shows_referenceWith hcolumns.start hsample.start

/-- The document of `notes` is stored, and the answer is a reference to it. -/
theorem notes_document :
    ∃ stored out, (small "notes").dataQuery noPrinting (warehouse notes) "SELECT note" 10 =
        ⟨stored, .ok out⟩ ∧ stored ≠ [] ∧
      ∃ result text document, (warehouse notes).query "SELECT note" 10 = .ok result ∧
        loads (fun _ => none) text = .ok (.obj document) ∧
        Tells "notes" result 10 (texts noPrinting) document ∧
        ((stored = [] ∧ text = compact noPrinting (.obj out) ∧ Tells "notes" result 10 id out) ∨
          ∃ artifact request, stored = [artifact] ∧ (warehouse notes).create request = .ok artifact ∧
            request.content = encodeUtf8 text ∧ Shows noPrinting document artifact out) := by
  have hstored : (keep ((small "notes").artifactRequest noPrinting notes 10
      (warehouse notes).token)).sizeBytes = 737 := by
    rw [keep, artifactRequest, jsonBytes_length, notes_bytes]
  have hplain : ∀ c ∈ (strip " notes ").toList, Plain c := by
    have hstrip : strip " notes " = "notes" := rfl
    rw [hstrip]
    exact List.all_iff_forall_prop.mp (by decide)
  have htools : dataSourceTools " notes " { maxInlineBytes := 512 } = .ok (small "notes") := rfl
  have hbytes : (small "notes").referenceBytes notes 10 (keep ((small "notes").artifactRequest
      noPrinting notes 10 (warehouse notes).token)) ≤ 512 :=
    referenceBytes_le_of_plain (p := noPrinting) htools (by decide) hplain rfl
      (by rw [hstored]; omega) (fun _ h => by cases h)
  have hsize : (JsonValue.obj ((small "notes").payload notes 10)).size noPrinting = 737 := notes_bytes
  have hanswer : (small "notes").dataQuery noPrinting (warehouse notes) "SELECT note" 10 =
      ⟨[_], if _ then _ else _⟩ :=
    dataQuery_stored (by decide) (by decide) rfl (by rw [hsize]; decide) (by rw [hsize]; decide) rfl
  have hbudget : ((small "notes").referenceBytes notes 10 (keep ((small "notes").artifactRequest
      noPrinting notes 10 (warehouse notes).token)) : Int) ≤ (small "notes").limits.maxInlineBytes :=
    Int.ofNat_le.mpr hbytes
  rw [if_pos hbudget] at hanswer
  refine ⟨_, _, hanswer, List.cons_ne_nil _ _,
    dataQuery_document (fun result hquery => ?_) hanswer⟩
  cases hquery
  refine ⟨fun row hrow => ?_, fun total h => by cases h⟩
  rw [List.mem_singleton.mp hrow]
  refine .obj (List.nodup_singleton _) fun field hfield => ?_
  rw [List.mem_singleton.mp hfield]
  exact .str _

end Document

end DataSources
end BaseAgent
