import TilePyramid.Command.Flag

/-!
# Arguments merged onto options

Every field of the options has one argument of its own. A merge puts what the arguments give in the
place of what was there, and keeps the other fields. Main statement: a second merge of the same
arguments changes nothing, two merges are one merge of the later arguments over the earlier ones,
and all options come from some arguments.
-/
namespace TilePyramid

/-- The fields of the options, those of the viewer, the projection and the datum included. -/
inductive OptionField where
  | inputFiles
  | outputName
  | outputFileType
  | moduleName
  | tileSize
  | jpegQuality
  | pngCompression
  | pixelScale
  | pixelOffset
  | aspectRatio
  | globalResolution
  | nodata
  | north
  | south
  | east
  | west
  | wholeGlobe
  | channel
  | mode
  | multiband
  | normalize
  | terrain
  | drawOrderOffset
  | maxLodPixels
  | projection
  | lat
  | lon
  | scale
  | p1
  | p2
  | utmZone
  | datum
  | sphereRadius
  deriving DecidableEq, Repr

@[reducible] def OptionField.Value (α σ : Type) : OptionField → Type
  | inputFiles => List Path
  | outputName => Option Path
  | outputFileType => String
  | moduleName => Option String
  | tileSize | aspectRatio => Nat
  | jpegQuality | pngCompression | globalResolution => Option Nat
  | pixelScale | pixelOffset | nodata => Option σ
  | north | south | east | west | lat | lon | p1 | p2 | sphereRadius => Option α
  | wholeGlobe | multiband | normalize | terrain => Bool
  | channel => Option Channel
  | mode => OutputMode
  | drawOrderOffset => UInt32
  | maxLodPixels => Int
  | projection => ProjectionKind
  | scale => α
  | utmZone => Option Int
  | datum => DatumKind

attribute [ext] KmlOptions ProjectionOptions DatumOptions Options

namespace Options

variable {α σ : Type}

def field (o : Options α σ) : (f : OptionField) → f.Value α σ
  | .inputFiles => o.inputFiles
  | .outputName => o.outputName
  | .outputFileType => o.outputFileType
  | .moduleName => o.moduleName
  | .tileSize => o.tileSize
  | .jpegQuality => o.jpegQuality
  | .pngCompression => o.pngCompression
  | .pixelScale => o.pixelScale
  | .pixelOffset => o.pixelOffset
  | .aspectRatio => o.aspectRatio
  | .globalResolution => o.globalResolution
  | .nodata => o.nodata
  | .north => o.north
  | .south => o.south
  | .east => o.east
  | .west => o.west
  | .wholeGlobe => o.wholeGlobe
  | .channel => o.channel
  | .mode => o.mode
  | .multiband => o.multiband
  | .normalize => o.normalize
  | .terrain => o.terrain
  | .drawOrderOffset => o.kml.drawOrderOffset
  | .maxLodPixels => o.kml.maxLodPixels
  | .projection => o.projection.kind
  | .lat => o.projection.lat
  | .lon => o.projection.lon
  | .scale => o.projection.scale
  | .p1 => o.projection.p1
  | .p2 => o.projection.p2
  | .utmZone => o.projection.utmZone
  | .datum => o.datum.kind
  | .sphereRadius => o.datum.sphereRadius

theorem ext_field {o o' : Options α σ} (h : ∀ f, o.field f = o'.field f) : o = o' := by
  have hkml : o.kml = o'.kml := KmlOptions.ext (h .drawOrderOffset) (h .maxLodPixels)
  have hprojection : o.projection = o'.projection :=
    ProjectionOptions.ext (h .projection) (h .lat) (h .lon) (h .scale) (h .p1) (h .p2) (h .utmZone)
  have hdatum : o.datum = o'.datum := DatumOptions.ext (h .datum) (h .sphereRadius)
  apply Options.ext
  · exact h .inputFiles
  · exact h .outputName
  · exact h .outputFileType
  · exact h .moduleName
  · exact h .tileSize
  · exact h .jpegQuality
  · exact h .pngCompression
  · exact h .pixelScale
  · exact h .pixelOffset
  · exact h .aspectRatio
  · exact h .globalResolution
  · exact h .nodata
  · exact h .north
  · exact h .south
  · exact h .east
  · exact h .west
  · exact h .wholeGlobe
  · exact h .channel
  · exact h .mode
  · exact h .multiband
  · exact h .normalize
  · exact h .terrain
  · exact hkml
  · exact hprojection
  · exact hdatum

end Options

theorem Flag.choice_name {β : Type} {all : List β} {name : β → String} {b : β} (hb : b ∈ all)
    (hname : ∀ c ∈ all, name c = name b → c = b) : choice all name (name b) = .ok b := by
  cases hfind : all.find? fun c => name c == name b with
  | none =>
    have hother := List.find?_eq_none.mp hfind b hb
    simp at hother
  | some c =>
    have hsame : name c = name b := by simpa using List.find?_some hfind
    obtain rfl := hname c (List.mem_of_find?_eq_some hfind) hsame
    simp [choice, hfind]

namespace Arguments

variable {α σ : Type}

/-- A switch that is off says nothing. -/
def turned (on : Bool) : Option Bool := if on then some true else .none

/-- An empty list says nothing. -/
def listed {β : Type} (xs : List β) : Option (List β) := if xs.isEmpty then .none else some xs

/-- What the arguments give for a field. -/
def given (a : Arguments α σ) : (f : OptionField) → Option (f.Value α σ)
  | .inputFiles => listed a.inputFiles
  | .outputName => a.outputName.map some
  | .outputFileType => a.fileType
  | .moduleName => a.moduleName.map some
  | .tileSize => a.tileSize
  | .jpegQuality => a.jpegQuality.map some
  | .pngCompression => a.pngCompression.map some
  | .pixelScale => a.pixelScale.map some
  | .pixelOffset => a.pixelOffset.map some
  | .aspectRatio => a.aspectRatio
  | .globalResolution => a.globalResolution.map some
  | .nodata => a.nodata.map some
  | .north => a.north.map some
  | .south => a.south.map some
  | .east => a.east.map some
  | .west => a.west.map some
  | .wholeGlobe => turned a.wholeGlobe
  | .channel => a.channel.map some
  | .mode => a.mode
  | .multiband => turned a.multiband
  | .normalize => turned a.normalize
  | .terrain => turned a.terrain
  | .drawOrderOffset => a.drawOrderOffset
  | .maxLodPixels => a.maxLodPixels
  | .projection => a.projection
  | .lat => a.lat.map some
  | .lon => a.lon.map some
  | .scale => a.scale
  | .p1 => a.p1.map some
  | .p2 => a.p2.map some
  | .utmZone => a.utmZone.map some
  | .datum => a.datum
  | .sphereRadius => a.sphereRadius.map some

/-- The arguments with every value from `b` that is given there and else from `a`, and with the
switches of both. The log level is always given. -/
def overriddenBy (a b : Arguments α σ) : Arguments α σ where
  inputFiles := if b.inputFiles.isEmpty then a.inputFiles else b.inputFiles
  optionsFile := b.optionsFile.or a.optionsFile
  logLevel := b.logLevel
  outputName := b.outputName.or a.outputName
  fileType := b.fileType.or a.fileType
  mode := b.mode.or a.mode
  moduleName := b.moduleName.or a.moduleName
  tileSize := b.tileSize.or a.tileSize
  jpegQuality := b.jpegQuality.or a.jpegQuality
  pngCompression := b.pngCompression.or a.pngCompression
  pixelScale := b.pixelScale.or a.pixelScale
  pixelOffset := b.pixelOffset.or a.pixelOffset
  aspectRatio := b.aspectRatio.or a.aspectRatio
  globalResolution := b.globalResolution.or a.globalResolution
  nodata := b.nodata.or a.nodata
  north := b.north.or a.north
  south := b.south.or a.south
  east := b.east.or a.east
  west := b.west.or a.west
  wholeGlobe := a.wholeGlobe || b.wholeGlobe
  channel := b.channel.or a.channel
  multiband := a.multiband || b.multiband
  normalize := a.normalize || b.normalize
  terrain := a.terrain || b.terrain
  drawOrderOffset := b.drawOrderOffset.or a.drawOrderOffset
  maxLodPixels := b.maxLodPixels.or a.maxLodPixels
  projection := b.projection.or a.projection
  lat := b.lat.or a.lat
  lon := b.lon.or a.lon
  scale := b.scale.or a.scale
  p1 := b.p1.or a.p1
  p2 := b.p2.or a.p2
  utmZone := b.utmZone.or a.utmZone
  datum := b.datum.or a.datum
  sphereRadius := b.sphereRadius.or a.sphereRadius

/-- Every choice among the arguments is one that its flag knows by a name. -/
structure IsSpelled (a : Arguments α σ) : Prop where
  mode : ∀ m, a.mode = some m →
    ∃ text, Flag.choice OutputMode.all OutputMode.name text = .ok m
  channel : ∀ c, a.channel = some c → ∃ text, Flag.choice Channel.all Channel.flagName text = .ok c
  projection : ∀ k, a.projection = some k → ∃ text,
    Flag.choice (ProjectionKind.all.filter (· ≠ .standard)) ProjectionKind.flagName text = .ok k
  datum : ∀ k, a.datum = some k →
    ∃ text, Flag.choice (DatumKind.all.filter (· ≠ .keep)) DatumKind.name text = .ok k

/-- Arguments that ask for options. There is no name for the projection and the datum of the inputs
themselves, so that these are left out. -/
def ofOptions (o : Options α σ) : Arguments α σ := {
  (none : Arguments α σ) with
  inputFiles := o.inputFiles
  outputName := o.outputName
  fileType := some o.outputFileType
  mode := some o.mode
  moduleName := o.moduleName
  tileSize := some o.tileSize
  jpegQuality := o.jpegQuality
  pngCompression := o.pngCompression
  pixelScale := o.pixelScale
  pixelOffset := o.pixelOffset
  aspectRatio := some o.aspectRatio
  globalResolution := o.globalResolution
  nodata := o.nodata
  north := o.north
  south := o.south
  east := o.east
  west := o.west
  wholeGlobe := o.wholeGlobe
  channel := o.channel
  multiband := o.multiband
  normalize := o.normalize
  terrain := o.terrain
  drawOrderOffset := some o.kml.drawOrderOffset
  maxLodPixels := some o.kml.maxLodPixels
  projection := if o.projection.kind = .standard then .none else some o.projection.kind
  lat := o.projection.lat
  lon := o.projection.lon
  scale := some o.projection.scale
  p1 := o.projection.p1
  p2 := o.projection.p2
  utmZone := o.projection.utmZone
  datum := if o.datum.kind = .keep then .none else some o.datum.kind
  sphereRadius := o.datum.sphereRadius }

section kinds
variable {β : Type}

theorem map_some_getD (x y : Option β) : (x.map some).getD y = x.or y := by
  cases x <;> rfl

theorem turned_getD (x y : Bool) : (turned x).getD y = (y || x) := by
  cases x <;> cases y <;> rfl

theorem turned_or (x y : Bool) : turned (y || x) = (turned x).or (turned y) := by
  cases x <;> cases y <;> rfl

theorem listed_getD (xs ys : List β) :
    (listed xs).getD ys = if xs.isEmpty then ys else xs := by
  cases xs <;> rfl

theorem listed_or (xs ys : List β) :
    listed (if xs.isEmpty then ys else xs) = (listed xs).or (listed ys) := by
  cases xs <;> rfl

theorem unless_getD [DecidableEq β] (k first : β) :
    (if k = first then .none else some k : Option β).getD first = k := by
  by_cases h : k = first <;> simp [h]

end kinds

/-- A merge puts every value that is given in its own field, and in no other. -/
theorem field_merge (a : Arguments α σ) (o : Options α σ) (f : OptionField) :
    (a.merge o).field f = (a.given f).getD (o.field f) := by
  cases f with
  | inputFiles => exact (listed_getD _ _).symm
  | outputFileType | tileSize | aspectRatio | mode | drawOrderOffset | maxLodPixels | projection
  | scale | datum => rfl
  | wholeGlobe | multiband | normalize | terrain => exact (turned_getD _ _).symm
  | outputName | moduleName | jpegQuality | pngCompression | pixelScale | pixelOffset
  | globalResolution | nodata | north | south | east | west | channel | lat | lon | p1 | p2
  | utmZone | sphereRadius => exact (map_some_getD _ _).symm

theorem given_overriddenBy (a b : Arguments α σ) (f : OptionField) :
    (a.overriddenBy b).given f = (b.given f).or (a.given f) := by
  cases f with
  | inputFiles => exact listed_or _ _
  | outputFileType | tileSize | aspectRatio | mode | drawOrderOffset | maxLodPixels | projection
  | scale | datum => rfl
  | wholeGlobe | multiband | normalize | terrain => exact turned_or _ _
  | outputName | moduleName | jpegQuality | pngCompression | pixelScale | pixelOffset
  | globalResolution | nodata | north | south | east | west | channel | lat | lon | p1 | p2
  | utmZone | sphereRadius => exact Option.map_or

theorem merge_merge_self (a : Arguments α σ) (o : Options α σ) :
    a.merge (a.merge o) = a.merge o := by
  apply Options.ext_field
  intro f
  rw [field_merge, field_merge]
  cases a.given f <;> rfl

theorem merge_overriddenBy (a b : Arguments α σ) (o : Options α σ) :
    (a.overriddenBy b).merge o = b.merge (a.merge o) := by
  apply Options.ext_field
  intro f
  rw [field_merge, field_merge, field_merge, given_overriddenBy]
  cases b.given f <;> rfl

theorem isSpelled_ofOptions (o : Options α σ) : (ofOptions o).IsSpelled where
  mode m _ := by
    have hmem : m ∈ OutputMode.all := by cases m <;> decide
    exact ⟨m.name, Flag.choice_name hmem (by cases m <;> decide)⟩
  channel c _ := by
    have hmem : c ∈ Channel.all := by cases c <;> decide
    exact ⟨c.flagName, Flag.choice_name hmem (by cases c <;> decide)⟩
  projection k hk := by
    have hne : k ≠ .standard := by
      rintro rfl
      simp [ofOptions] at hk
    have hall : k ∈ ProjectionKind.all := by cases k <;> decide
    have hmem : k ∈ ProjectionKind.all.filter (· ≠ .standard) := by simp [hall, hne]
    exact ⟨k.flagName, Flag.choice_name hmem (by cases k <;> decide +kernel)⟩
  datum k hk := by
    have hne : k ≠ .keep := by
      rintro rfl
      simp [ofOptions] at hk
    have hall : k ∈ DatumKind.all := by cases k <;> decide
    have hmem : k ∈ DatumKind.all.filter (· ≠ .keep) := by simp [hall, hne]
    exact ⟨k.name, Flag.choice_name hmem (by cases k <;> decide)⟩

theorem merge_ofOptions [Arith α] (o : Options α σ) : (ofOptions o).merge .initial = o := by
  apply Options.ext_field
  intro f
  rw [field_merge]
  cases f with
  | inputFiles =>
    refine (listed_getD _ []).trans ?_
    simp [ofOptions, Options.field]
  | outputFileType | tileSize | aspectRatio | mode | drawOrderOffset | maxLodPixels | scale => rfl
  | projection | datum => exact unless_getD _ _
  | wholeGlobe | multiband | normalize | terrain =>
    exact (turned_getD _ false).trans (Bool.false_or _)
  | outputName | moduleName | jpegQuality | pngCompression | pixelScale | pixelOffset
  | globalResolution | nodata | north | south | east | west | channel | lat | lon | p1 | p2
  | utmZone | sphereRadius => exact (map_some_getD _ .none).trans Option.or_none

/-- A merge is an override. The same arguments merged again change nothing; arguments merged after
others are those others overridden by them; from the options at the start every options can be
reached; and each field becomes what its own argument gives for it, or else stays as it is. -/
theorem merge_overrides [Arith α] :
    (∀ (a : Arguments α σ) (o : Options α σ), a.merge (a.merge o) = a.merge o) ∧
      (∀ (a b : Arguments α σ) (o : Options α σ),
        b.merge (a.merge o) = (a.overriddenBy b).merge o) ∧
      (∀ o : Options α σ, ∃ a : Arguments α σ, a.IsSpelled ∧ a.merge .initial = o) ∧
      ∀ (a : Arguments α σ) (o : Options α σ) (f : OptionField),
        (a.merge o).field f = (a.given f).getD (o.field f) := by
  refine ⟨merge_merge_self, ?_, ?_, field_merge⟩
  · intro a b o
    exact (merge_overriddenBy a b o).symm
  · intro o
    exact ⟨ofOptions o, isSpelled_ofOptions o, merge_ofOptions o⟩

end Arguments
end TilePyramid
