import KKTerm.Ipam.ImportBatch
import KKTerm.Ipam.PrefixForest

/-!
# The preview and the import agree

What the preview marks as ready the import creates, all of it and nothing else.
The preview is made from the view of the tables that the destination loads.
-/

namespace Ipam

open Fallible List IpamImportPreviewRow

/-- The import of a previewed batch creates the rows marked as ready. The preview has one row
for each data row; without a column for the type it reports the missing header instead. -/
theorem import_creates_ready (m : JsText.CaseMap) (rows : List (List (List Char)))
    (ctx : ParseContext) (t : Tables) (newId : IdSource) (alike : CellsAlike rows)
    (reflects : Reflects ctx t) (fresh : FreshIds newId t)
    (size : (parseIpamImportRows m rows ctx).batch.vlans.length +
      (parseIpamImportRows m rows ctx).batch.prefixes.length +
      (parseIpamImportRows m rows ctx).batch.addresses.length ≤ maxImportRecords) :
    let parsed := parseIpamImportRows m rows ctx
    let ready := fun kind => parsed.rows.countP (IsReady kind)
    (∃ t', importBatch newId t parsed.batch =
        .ok ({ vlans := ready .vlan, prefixes := ready .ipPrefix, addresses := ready .address
               skipped := 0 }, t') ∧
      t'.vlans.rows.length = t.vlans.rows.length + ready .vlan ∧
      t'.prefixes.rows.length = t.prefixes.rows.length + ready .ipPrefix ∧
      t'.addresses.rows.length = t.addresses.rows.length + ready .address) ∧
    (¬ MissingHeader m rows →
      parsed.rows.map rowNumber = (dataRows rows).map ImportRow.rowNumber ∧
      parsed.ready + parsed.skipped + parsed.errors = (dataRows rows).length) ∧
    (MissingHeader m rows →
      parsed.fileIssue = some (.missingHeader "record_type".toList) ∧ parsed.rows = [] ∧
      parsed.batch = {}) := by
  intro parsed ready
  refine ⟨?_, fun present => ?_, fun missing => ?_⟩
  · obtain ⟨result, t', done, rfl, vlans, prefixes, addresses⟩ :=
      importBatch_creates (batch_importable alike m ctx) reflects fresh size
    have counts := preview_ready m rows ctx
    refine ⟨t', ?_, ?_, ?_, ?_⟩
    · simp only [ready, parsed, counts]
      exact done
    · have lengths := congrArg length vlans
      simp only [vids, length_append, length_map] at lengths
      simp only [ready, parsed, counts]
      exact lengths
    · have lengths := congrArg length prefixes
      simp only [prefixKeys, length_append, length_map] at lengths
      simp only [ready, parsed, counts]
      exact lengths
    · have lengths := congrArg length addresses
      simp only [addressKeys, length_append, length_map] at lengths
      simp only [ready, parsed, counts]
      exact lengths
  · have numbers := preview_rowNumbers present ctx
    refine ⟨numbers, ?_⟩
    rw [preview_total m rows ctx, ← length_map rowNumber, numbers, length_map]
  · rw [show parsed = _ from parseIpamImportRows_missing missing ctx]
    exact ⟨rfl, rfl, rfl⟩

def importSample : List (List (List Char)) :=
  [ipamImportHeaders,
    ["vlan", "", "", "", "", "", "", "", "", "30", "Management", "", "Management network",
      "0"].map String.toList,
    ["prefix", "10.20.30.0/24", "", "corp", "Management", "active", "", "", "", "30", "", "",
      "Management subnet", ""].map String.toList,
    ["address", "", "10.20.30.10", "corp", "", "active", "core-sw-01.example.com", "switch",
      "Model 9300", "", "", "", "Core switch", ""].map String.toList]

def emptyContext : ParseContext where
  sites := []
  vlans := []
  prefixes := []
  addresses := []

def emptyTables : Tables where
  vlans := .empty
  prefixes := .empty
  addresses := .empty
  hosts := []

def numberedIds : IdSource :=
  fun n kind => kind.toList ++ '-' :: Nat.toDigits 10 n

lemma reflects_empty : Reflects emptyContext emptyTables := by
  constructor <;> simp [emptyContext, emptyTables, Table.empty, vids, prefixKeys, addressKeys]

lemma numberedIds_fresh : FreshIds numberedIds emptyTables where
  apart kind := fun a b same => Text.toDigits_injective
    (cons_injective (append_cancel_left same))
  vlans := by simp [emptyTables, Table.empty]
  prefixes := by simp [emptyTables, Table.empty]
  addresses := by simp [emptyTables, Table.empty]

theorem importSample_created : ∃ t', importBatch numberedIds emptyTables
    (parseIpamImportRows .ofAscii importSample emptyContext).batch =
      .ok ({ vlans := 1, prefixes := 1, addresses := 1, skipped := 0 }, t') ∧
    t'.vlans.rows.length = 1 := by
  have alike : CellsAlike importSample := by
    unfold CellsAlike
    decide +kernel
  obtain ⟨⟨t', done, vlans, _⟩, _⟩ := import_creates_ready .ofAscii importSample emptyContext
    emptyTables numberedIds alike reflects_empty numberedIds_fresh (by decide +kernel)
  have vlan : (parseIpamImportRows .ofAscii importSample emptyContext).rows.countP (IsReady .vlan) = 1 := by
    decide +kernel
  have cidr : (parseIpamImportRows .ofAscii importSample emptyContext).rows.countP
      (IsReady .ipPrefix) = 1 := by
    decide +kernel
  have address : (parseIpamImportRows .ofAscii importSample emptyContext).rows.countP
      (IsReady .address) = 1 := by
    decide +kernel
  simp only [vlan, cidr, address] at done vlans
  exact ⟨t', done, vlans⟩

/-- A file without a column for the type: its data row has no row in the preview. -/
def untypedRows : List (List (List Char)) :=
  [["cidr".toList], ["10.20.30.0/24".toList]]

theorem untypedRows_unreported :
    CellsAlike untypedRows ∧ Reflects emptyContext emptyTables ∧ (dataRows untypedRows).length = 1 ∧
      (parseIpamImportRows .ofAscii untypedRows emptyContext).ready +
        (parseIpamImportRows .ofAscii untypedRows emptyContext).skipped +
        (parseIpamImportRows .ofAscii untypedRows emptyContext).errors = 0 := by
  refine ⟨?_, reflects_empty, ?_⟩
  · unfold CellsAlike
    decide +kernel
  · decide +kernel

end Ipam
