import TileRealm.Directory.Report
import TileRealm.Proofs.Json.Written

/-!
# Directory documents

Reports, requests and answers are read back from what is written for them, whatever their texts are.
In the fields that take null an empty text may as well be null or missing
(`RegionReport.ofJson?_of_spells`, `LookupAnswer.ofJson?_of_spells`).
-/

namespace TileRealm

open Json

namespace RegionReport

/-- The fields that take null. -/
def lenient : List String := ["clusterTcp", "localTcp"]

theorem ofJson?_of_spells {r : RegionReport} {es : List (String × Option Scalar)}
    (h : Spells lenient es r.members) : ofJson? (.object (entries es)) = some r := by
  have hnames : (r.members.map Prod.fst).Nodup := by
    show ["name", "online", "clusterTcp", "localTcp", "minX", "maxX", "minY", "maxY"].Nodup
    decide
  obtain ⟨vs, hfields, hfound⟩ := fields?_of_spells h hnames
  unfold members at hfields hfound
  rcases hfound with _ | ⟨hname, _ | ⟨honline, _ | ⟨hcluster, _ | ⟨hlocal, _ | ⟨hminX, _ | ⟨hmaxX,
    _ | ⟨hminY, _ | ⟨hmaxY, _ | _⟩⟩⟩⟩⟩⟩⟩⟩
  have hname := hname.eq_some (by decide)
  have honline := honline.eq_some (by decide)
  have hcluster := hcluster.optional_textOrNull?
  have hlocal := hlocal.optional_textOrNull?
  have hminX := hminX.eq_some (by decide)
  have hmaxX := hmaxX.eq_some (by decide)
  have hminY := hminY.eq_some (by decide)
  have hmaxY := hmaxY.eq_some (by decide)
  subst hname honline hminX hmaxX hminY hmaxY
  simp only [List.map_cons, List.map_nil] at hfields
  simp only [ofJson?, hfields, hcluster, hlocal, Option.bind_eq_bind, Option.bind_some,
    optional_some, int32?_entryValue]
  rfl

theorem parse_writeRecord {r : RegionReport} {es : List (String × Option Scalar)}
    (h : Spells lenient es r.members) : parse (writeRecord es) = some r := by
  rw [parse, Json.parse_writeRecord, Option.bind_some, ofJson?_of_spells h]

theorem parseList_writeRecords {rs : List RegionReport}
    {records : List (List (String × Option Scalar))}
    (h : List.Forall₂ (fun es r => Spells lenient es (members r)) records rs) :
    parseList (writeRecords records) = some rs := by
  rw [parseList, parse_writeRecords, Option.bind_some, list?_eq_some_iff]
  refine ⟨_, rfl, ?_⟩
  rw [List.forall₂_map_left_iff]
  exact h.imp fun es r => ofJson?_of_spells

theorem parse_write (r : RegionReport) : parse r.write = some r := by
  rw [write, writeObject_eq]
  exact parse_writeRecord (spells_plain lenient r.members)

theorem parseList_writeList (rs : List RegionReport) : parseList (writeList rs) = some rs := by
  rw [writeList, writeArray_eq, List.map_map]
  apply parseList_writeRecords
  rw [List.forall₂_map_left_iff, List.forall₂_same]
  exact fun r _ => spells_plain lenient r.members

end RegionReport

namespace LookupRequest

theorem ofJson?_of_spells {r : LookupRequest} {es : List (String × Option Scalar)}
    (h : Spells [] es r.members) : ofJson? (.object (entries es)) = some r := by
  have hnames : (r.members.map Prod.fst).Nodup := by
    show ["regionName", "x", "y", "ghostZoneWidth"].Nodup
    decide
  obtain ⟨vs, hfields, hfound⟩ := fields?_of_spells h hnames
  unfold members at hfields hfound
  rcases hfound with _ | ⟨hname, _ | ⟨hx, _ | ⟨hy, _ | ⟨hwidth, _ | _⟩⟩⟩⟩
  have hname := hname.eq_some List.not_mem_nil
  have hx := hx.eq_some List.not_mem_nil
  have hy := hy.eq_some List.not_mem_nil
  have hwidth := hwidth.eq_some List.not_mem_nil
  subst hname hx hy hwidth
  simp only [List.map_cons, List.map_nil] at hfields
  simp only [ofJson?, hfields, Option.bind_eq_bind, Option.bind_some, required_some,
    int32?_entryValue]
  rfl

theorem parse_write (r : LookupRequest) : parse r.write = some r := by
  rw [write, writeObject_eq, parse, Json.parse_writeRecord, Option.bind_some]
  exact ofJson?_of_spells (spells_plain [] r.members)

end LookupRequest

namespace LookupAnswer

/-- The fields that take null. -/
def lenient : List String := ["currentRegion", "clusterTcp", "localTcp", "nextRegion"]

theorem ofJson?_of_spells {r : LookupAnswer} {es : List (String × Option Scalar)}
    (h : Spells lenient es r.members) : ofJson? (.object (entries es)) = some r := by
  have hnames : (r.members.map Prod.fst).Nodup := by
    show ["currentRegion", "online", "clusterTcp", "localTcp", "nextRegion"].Nodup
    decide
  obtain ⟨vs, hfields, hfound⟩ := fields?_of_spells h hnames
  unfold members at hfields hfound
  rcases hfound with
    _ | ⟨hcurrent, _ | ⟨honline, _ | ⟨hcluster, _ | ⟨hlocal, _ | ⟨hnext, _ | _⟩⟩⟩⟩⟩
  have hcurrent := hcurrent.optional_textOrNull?
  have honline := honline.eq_some (by decide)
  have hcluster := hcluster.optional_textOrNull?
  have hlocal := hlocal.optional_textOrNull?
  have hnext := hnext.optional_textOrNull?
  subst honline
  simp only [List.map_cons, List.map_nil] at hfields
  simp only [ofJson?, hfields, hcurrent, hcluster, hlocal, hnext, Option.bind_eq_bind,
    Option.bind_some, optional_some]
  rfl

theorem parse_writeRecord {r : LookupAnswer} {es : List (String × Option Scalar)}
    (h : Spells lenient es r.members) : parse (writeRecord es) = some r := by
  rw [parse, Json.parse_writeRecord, Option.bind_some, ofJson?_of_spells h]

theorem parse_write (r : LookupAnswer) : parse r.write = some r := by
  rw [write, writeObject_eq]
  exact parse_writeRecord (spells_plain lenient r.members)

end LookupAnswer

/-- Reports, lists of reports, requests and answers are read back from what is written for them.  So
are reports, lists of reports and answers in which empty texts are null or missing, where the field
takes null. -/
theorem directory_documents_read_back :
    (∀ r : RegionReport, RegionReport.parse r.write = some r) ∧
      (∀ rs : List RegionReport, RegionReport.parseList (RegionReport.writeList rs) = some rs) ∧
      (∀ r : LookupRequest, LookupRequest.parse r.write = some r) ∧
      (∀ r : LookupAnswer, LookupAnswer.parse r.write = some r) ∧
      (∀ (r : RegionReport) (es : List (String × Option Scalar)),
        Spells RegionReport.lenient es r.members →
          RegionReport.parse (writeRecord es) = some r) ∧
      (∀ (rs : List RegionReport) (records : List (List (String × Option Scalar))),
        List.Forall₂ (fun es r => Spells RegionReport.lenient es (RegionReport.members r))
            records rs →
          RegionReport.parseList (writeRecords records) = some rs) ∧
      ∀ (r : LookupAnswer) (es : List (String × Option Scalar)),
        Spells LookupAnswer.lenient es r.members → LookupAnswer.parse (writeRecord es) = some r :=
  ⟨RegionReport.parse_write, RegionReport.parseList_writeList, LookupRequest.parse_write,
    LookupAnswer.parse_write, fun _ _ => RegionReport.parse_writeRecord,
    fun _ _ => RegionReport.parseList_writeRecords, fun _ _ => LookupAnswer.parse_writeRecord⟩

theorem directory_documents_read_back_lenient :
    let r : RegionReport := ⟨"\"a\\\n\x01é", true, "", "", -1, 7, -2147483648, 2147483647⟩
    let a : LookupAnswer := ⟨"", true, "b:9090", "", ""⟩
    let es : List (String × Option Scalar) :=
      [("name", some (.text "\"a\\\n\x01é")), ("online", some (.flag true)), ("clusterTcp", none),
        ("minX", some (.number (-1))), ("maxX", some (.number 7)),
        ("minY", some (.number (-2147483648))), ("maxY", some (.number 2147483647))]
    let fs : List (String × Option Scalar) :=
      [("currentRegion", none), ("online", some (.flag true)),
        ("clusterTcp", some (.text "b:9090")), ("localTcp", some (.text ""))]
    (Spells RegionReport.lenient es r.members ∧ RegionReport.parse (writeRecord es) = some r) ∧
      RegionReport.parseList (writeRecords [es, plain r.members]) = some [r, r] ∧
      (Spells LookupAnswer.lenient fs a.members ∧ LookupAnswer.parse (writeRecord fs) = some a) ∧
      writeRecord fs =
        "\x7b\"currentRegion\":null,\"online\":true,\"clusterTcp\":\"b:9090\",\"localTcp\":\"\"\x7d" := by
  intro r a es fs
  obtain ⟨-, -, -, -, hreport, hreports, hanswer⟩ := directory_documents_read_back
  have hes : Spells RegionReport.lenient es r.members :=
    .value (.value (.null (by decide) (.missing (by decide) (.value (.value (.value (.value .nil)))))))
  have hfs : Spells LookupAnswer.lenient fs a.members :=
    .null (by decide) (.value (.value (.value (.missing (by decide) .nil))))
  exact ⟨⟨hes, hreport r es hes⟩,
    hreports [r, r] _ (.cons hes (.cons (spells_plain _ r.members) .nil)),
    ⟨hfs, hanswer a fs hfs⟩, rfl⟩

end TileRealm
