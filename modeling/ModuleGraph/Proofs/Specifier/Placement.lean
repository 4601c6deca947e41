import ModuleGraph.Proofs.Extraction.Erasure
import ModuleGraph.Proofs.Path.Below
import ModuleGraph.Proofs.Specifier.Canonical

/-!
# Files that are read from another directory

Main statement: `Specifier.normalize_join`. A file with a relative path may be read from any
directory, whatever climbs the directory has. As long as neither the file nor its specifiers
climb out of the directory from which the path is read, the specifiers are normalized as if
this directory were unknown.

## Implementation notes

What stands in front of a file stands in front of every target that does not climb out, so the
way between the two does not show it.
-/

namespace ModuleGraph

namespace Route

/-- What stands in front of two lists is shared by them. -/
theorem sharedLength_append (front xs ys : List String) :
    sharedLength (front ++ xs) (front ++ ys) = front.length + sharedLength xs ys := by
  induction front with
  | nil => simp
  | cons s rest ih =>
      rw [List.cons_append, List.cons_append, sharedLength, if_pos rfl, ih, List.length_cons]
      omega

/-- The way between routes without climbs is the same wherever both begin. -/
theorem relativeTo_follow_segments (outer : Route) {base target : Route} (hbase : base.Clean)
    (htarget : target.Clean) (hbaseUps : base.ups = 0) (htargetUps : target.ups = 0) :
    (outer.follow base.segments).relativeTo (outer.follow target.segments) =
      base.relativeTo target := by
  have hfollow : ∀ r : Route, r.Clean → r.ups = 0 →
      outer.follow r.segments = ⟨outer.ups, outer.names ++ r.names⟩ := by
    intro r hr hups
    rw [follow_segments outer hr, hups]
    simp
  have hups : base.ups = target.ups := hbaseUps.trans htargetUps.symm
  rw [hfollow base hbase hbaseUps, hfollow target htarget htargetUps, relativeTo, relativeTo,
    if_pos rfl, if_pos hups]
  simp only [sharedLength_append, List.length_append, List.drop_append, mk.injEq]
  constructor
  · omega
  · simp

end Route

namespace Path

/-- The path begins with a climb. -/
def Climbs (p : Path) : Prop := p.components.head? = some .up

instance (p : Path) : Decidable p.Climbs := inferInstanceAs (Decidable (_ = _))

/-- A collapsed relative path climbs when its route does. -/
theorem climbs_ofBody_iff {r : Route} (hr : r.Clean) :
    (ofBody false r.segments).Climbs ↔ r.ups ≠ 0 := by
  rw [Climbs, hr.components_ofBody]
  cases hups : r.ups with
  | zero =>
      cases hnames : r.names <;> simp [rootSteps, Route.steps, hups, hnames]
  | succ k => simp [rootSteps, Route.steps, hups, List.replicate_succ]

variable {file : Path}

theorem ups_route_eq_zero (hrel : file.isAbsolute = false) (h : ¬ file.normal.Climbs) :
    file.route.ups = 0 := by
  rw [normal_eq, hrel, climbs_ofBody_iff file.clean_route] at h
  exact not_not.mp h

theorem ups_follow_eq_zero (hrel : file.isAbsolute = false) {text : String}
    (h : ¬ (file.resolve text).Climbs) : (file.route.follow (Text.split '/' text)).ups = 0 := by
  rw [resolve_eq, hrel, climbs_ofBody_iff (file.clean_route.follow_split text)] at h
  exact not_not.mp h

/-- The directory of a file that is read from `outer` lies there as it does by itself. -/
theorem route_directory_join (outer : Path) (hrel : file.isAbsolute = false)
    (hname : file.fileName? ≠ none) :
    (outer.join file).directory.route = outer.route.follow file.directory.route.segments := by
  obtain ⟨s, hs⟩ := Option.ne_none_iff_exists'.mp hname
  obtain ⟨init, tail, hsegs, hs, htail⟩ := exists_segments_eq_of_fileName? hs
  obtain ⟨lead, hjoin, hlead⟩ := exists_segments_join outer hrel
  have houter : (outer.join file).segments = (lead ++ init) ++ s :: tail := by
    rw [hjoin, hsegs, List.append_assoc]
  have hwhole : ∀ t ∈ init, '/' ∉ t.toList := by
    intro t ht
    have hmem : t ∈ file.segments := by
      rw [hsegs]
      exact List.mem_append_left _ ht
    exact Text.not_mem_of_mem_split hmem
  have hroute : outer.route = Route.stay.follow lead :=
    Route.stay.follow_eq_of_stepsOf_eq hlead.symm
  calc
    (outer.join file).directory.route = Route.stay.follow (lead ++ init) :=
      Route.stay.follow_eq_of_stepsOf_eq (stepsOf_directory houter hs htail)
    _ = outer.route.follow init := by rw [Route.follow_append, hroute]
    _ = outer.route.follow (Route.stay.follow init).segments :=
      (Route.follow_segments_follow outer.route Route.clean_stay hwhole).symm
    _ = outer.route.follow file.directory.route.segments := by
      rw [← Route.stay.follow_eq_of_stepsOf_eq (stepsOf_directory hsegs hs htail)]
      rfl

end Path

namespace Specifier

/-- The file lies below the directory from which its path is read, and it has a name there. -/
structure PlacedBelow (file : Path) : Prop where
  relative : file.isAbsolute = false
  named : file.fileName? ≠ none
  below : ¬ file.directory.normal.Climbs

/-- The specifier leads nowhere above the directory from which the path of its file is read. -/
def StaysBelow (file : Path) (raw : String) : Prop :=
  Anchor.of raw = .bare ∨ ¬ (file.directory.resolve raw).Climbs

instance (file : Path) (raw : String) : Decidable (StaysBelow file raw) :=
  inferInstanceAs (Decidable (_ ∨ _))

/-- The specifier is normalized alike from whatever directory its file is read. -/
theorem normalize_join_of_placedBelow (outer : Path) {file : Path} (hfile : PlacedBelow file)
    {raw : String} (hraw : StaysBelow file raw) (table : Extension.Table) :
    normalize raw (outer.join file) table = normalize raw file table := by
  have hway : Anchor.of raw ≠ .bare →
      wayFrom (directoryRoute (outer.join file)) raw = wayFrom (directoryRoute file) raw := by
    intro hanchor
    have hrel := Path.isAbsolute_directory_of_relative hfile.relative
    have hclean := file.directory.clean_route
    rw [wayFrom, wayFrom, directoryRoute, directoryRoute,
      Path.route_directory_join outer hfile.relative hfile.named,
      ← Route.follow_segments_follow _ hclean fun _ => Text.not_mem_of_mem_split]
    apply Route.relativeTo_follow_segments _ hclean (hclean.follow_split raw)
    · exact Path.ups_route_eq_zero hrel hfile.below
    · exact Path.ups_follow_eq_zero hrel (hraw.resolve_left hanchor)
  unfold normalize normalizeFrom
  by_cases hanchor : Anchor.of raw = .bare
  · simp only [hanchor, if_pos]
  · simp only [hanchor, if_neg, hway hanchor, not_false_eq_true]

end Specifier

/-- The edge as one of the file `file`. -/
def Edge.readAs (file : Path) (e : Edge) : Edge := { e with file }

/-- All that is known of a file, as of the file `file`. -/
def Extraction.readAs (file : Path) (x : Extraction) : Extraction :=
  { x with file, edges := x.edges.map (Edge.readAs file) }

/-- What a declaration names as its source. -/
def Declaration.source? : Declaration → Option String
  | .importing d => some d.source
  | .exporting d => d.source

/-- The source of a declaration is the target of a use. -/
theorem Declaration.exists_use_of_source? {items : List Item} {d : Declaration}
    (hd : d ∈ ofItems items) {raw : String} (hraw : d.source? = some raw) :
    ∃ u ∈ items.flatMap Item.uses, u.target = raw := by
  have huse : ∃ u, d.use? = some u ∧ u.target = raw := by
    have hwell := wellFormed_of_mem_ofItems hd
    cases d with
    | importing d => exact ⟨_, rfl, Option.some.inj hraw⟩
    | exporting d =>
        obtain ⟨source, shape, typeOnly⟩ := d
        cases hraw
        cases shape with
        | declared names => cases hwell
        | _ => exact ⟨_, rfl, rfl⟩
  obtain ⟨u, hu, htarget⟩ := huse
  rw [← filterMap_use?_ofItems]
  exact ⟨u, List.mem_filterMap.mpr ⟨d, hd, hu⟩, htarget⟩

theorem ImportRecord.ofDeclaration_congr {file file' : Path} {table : Extension.Table}
    {d : ImportDeclaration}
    (h : Specifier.normalize d.source file' table = Specifier.normalize d.source file table) :
    ofDeclaration file' table d = ofDeclaration file table d := by
  rw [ofDeclaration, ofDeclaration, h]

/-- Sources that are normalized alike in two files make the same records. -/
theorem Record.ofDeclarations_congr {file file' : Path} {table : Extension.Table}
    {ds : List Declaration}
    (h : ∀ d ∈ ds, ∀ raw, d.source? = some raw →
      Specifier.normalize raw file' table = Specifier.normalize raw file table) :
    ofDeclarations file' table ds = ofDeclarations file table ds := by
  have himports : (ds.filterMap (·.import?)).map (ImportRecord.ofDeclaration file' table) =
      (ds.filterMap (·.import?)).map (ImportRecord.ofDeclaration file table) := by
    apply List.map_congr_left
    intro i hi
    obtain ⟨d, hd, hdi⟩ := List.mem_filterMap.mp hi
    cases d with
    | importing d =>
        cases hdi
        exact ImportRecord.ofDeclaration_congr (h (.importing i) hd i.source rfl)
    | exporting d => cases hdi
  unfold ofDeclarations
  dsimp only
  rw [himports]
  apply List.map_congr_left
  intro d hd
  cases d with
  | importing d =>
      rw [ofDeclaration, ofDeclaration,
        ImportRecord.ofDeclaration_congr (h (.importing d) hd d.source rfl)]
  | exporting d =>
      have htarget : (d.source.map fun s => Specifier.normalize s file' table) =
          d.source.map fun s => Specifier.normalize s file table :=
        Option.map_congr fun raw hraw => h (.exporting d) hd raw hraw
      rw [ofDeclaration, ofDeclaration, htarget]

theorem Edge.ofRecords_readAs (file file' : Path) (records : List Record)
    (table : Extension.Table) :
    ofRecords file' records table =
      (ofRecords file records table).map fun es => es.map (readAs file') := by
  unfold ofRecords
  cases Contribution.ofRecords records with
  | error fault => rfl
  | ok cs =>
      apply congrArg Except.ok
      dsimp only
      rw [List.map_map]
      rfl

namespace Extraction

/-- What is extracted from the file is the same from whatever directory its path is read. -/
theorem ofItems_join_of_placedBelow (outer : Path) {file : Path}
    (hfile : Specifier.PlacedBelow file) {items : List Item}
    (hitems : ∀ u ∈ items.flatMap Item.uses, Specifier.StaysBelow file u.target)
    (table : Extension.Table) :
    ofItems (outer.join file) items table =
      (ofItems file items table).map (readAs (outer.join file)) := by
  have hrecords : Record.ofDeclarations (outer.join file) table (Declaration.ofItems items) =
      Record.ofDeclarations file table (Declaration.ofItems items) := by
    apply Record.ofDeclarations_congr
    intro d hd raw hraw
    obtain ⟨u, hu, rfl⟩ := Declaration.exists_use_of_source? hd hraw
    exact Specifier.normalize_join_of_placedBelow outer hfile (hitems u hu) table
  unfold ofItems
  dsimp only
  rw [hrecords, Edge.ofRecords_readAs file (outer.join file)]
  cases Edge.ofRecords file
    (Record.ofDeclarations file table (Declaration.ofItems items)) table <;> rfl

end Extraction

namespace Specifier

/-- A file that lies below the directory from which its path is read has the same specifiers
from every directory, as long as they do not lead above it; and if all its specifiers are such,
everything that is extracted from it is the same. -/
theorem normalize_join (outer : Path) {file : Path} (hfile : PlacedBelow file)
    (table : Extension.Table) :
    (∀ raw, StaysBelow file raw →
        normalize raw (outer.join file) table = normalize raw file table) ∧
      ∀ items, (∀ u ∈ items.flatMap Item.uses, StaysBelow file u.target) →
        Extraction.ofItems (outer.join file) items table =
          (Extraction.ofItems file items table).map (.readAs (outer.join file)) :=
  ⟨fun _ hraw => normalize_join_of_placedBelow outer hfile hraw table,
    fun _ hitems => Extraction.ofItems_join_of_placedBelow outer hfile hitems table⟩

/-- An import that leaves its directory and enters it again, and one of a package. -/
def importsAround : List Item :=
  ["../lib/./icons/a.svg", "react"].map fun source =>
    .importing
      { source, typeOnly := false, defaultName := some "x", wholeName := none, entries := [] }

/-- The directory in front has more climbs than names. -/
theorem normalize_join_climbing :
    let file : Path := ⟨"./x/../lib/m.ts"⟩
    let outer : Path := ⟨"../q/../.."⟩
    PlacedBelow file ∧ StaysBelow file "../lib/./icons/a.svg" ∧
      (∀ u ∈ importsAround.flatMap Item.uses, StaysBelow file u.target) ∧
      normalize "../lib/./icons/a.svg" (outer.join file) .standard =
        normalize "../lib/./icons/a.svg" file .standard ∧
      Extraction.ofItems (outer.join file) importsAround .standard =
        (Extraction.ofItems file importsAround .standard).map (.readAs (outer.join file)) := by
  intro file outer
  have hfile : PlacedBelow file := ⟨by decide, by decide, by decide +kernel⟩
  have hraw : StaysBelow file "../lib/./icons/a.svg" := by decide +kernel
  have hitems : ∀ u ∈ importsAround.flatMap Item.uses, StaysBelow file u.target := by
    decide +kernel
  obtain ⟨hspecifier, hextraction⟩ := normalize_join outer hfile .standard
  exact ⟨hfile, hraw, hitems, hspecifier _ hraw, hextraction _ hitems⟩

end Specifier

end ModuleGraph
