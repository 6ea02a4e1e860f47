import TilePyramid.Proofs.Interruptions
import TilePyramid.Pyramid.Viewer

/-!
# The life of a generator

A generator is set and asked to generate in any order, with any writers. Its state between two calls
follows from what has been set and from how the last generation that was not refused has ended, and
generation leaves everything else as it was set.
-/
namespace TilePyramid

/-- What can be set on a generator. The settings of a viewer stand for their format. -/
inductive Setting (α : Type) where
  | tileSize (size : Nat)
  | fileType (name : String)
  | crop (box : PixelBox)
  | format (format : Format α)
  | viewer (settings : ViewerSettings α)

namespace Setting

variable {α : Type}

def tileSize? : Setting α → Option Nat
  | tileSize size => some size
  | _ => none

def fileType? : Setting α → Option String
  | fileType name => some name
  | _ => none

def crop? : Setting α → Option PixelBox
  | crop box => some box
  | _ => none

def format? : Setting α → Option (Format α)
  | format f => some f
  | viewer settings => some settings.format
  | _ => none

end Setting

def Generator.set {α : Type} (g : Generator α) : Setting α → Generator α
  | .tileSize size => g.setTileSize size
  | .fileType name => g.setFileType name
  | .crop box => g.setCrop box
  | .format f => g.setFormat f
  | .viewer settings => g.setFormat settings.format

/-- A call on a generator. The writers and the reports of all calls share one world. -/
inductive GeneratorCall (α σ S : Type) where
  | set (setting : Setting α)
  | generate (w : TileWriter (StateM S) σ) (report : α → StateM S Unit)

def GeneratorCall.setting? {α σ S : Type} : GeneratorCall α σ S → Option (Setting α)
  | set setting => some setting
  | generate .. => none

/-- One request to generate: the generator before and after it, its outcome, and what a writer has
been asked for. -/
structure Generation (α σ : Type) where
  before : Generator α
  outcome : Except Error TileTree
  after : Generator α
  asked : List (AnsweredCall σ)

inductive GeneratorEvent (α σ : Type) where
  | set (setting : Setting α)
  | generated (n : Generation α σ)

namespace GeneratorEvent

variable {α σ : Type}

/-- Generation is refused to a generator that is not configured. -/
def isRefused : GeneratorEvent α σ → Bool
  | set _ => false
  | generated n => n.before.state ≠ .configured

def isSuccess : GeneratorEvent α σ → Bool
  | set _ => false
  | generated n => n.outcome.isOk

/-- The last event that is not a refusal is a generation that succeeded. -/
def endInSuccess (events : List (GeneratorEvent α σ)) : Bool :=
  (events.filter fun e => !e.isRefused).getLast?.any isSuccess

theorem endInSuccess_append (events : List (GeneratorEvent α σ)) (e : GeneratorEvent α σ) :
    endInSuccess (events ++ [e]) = if e.isRefused then endInSuccess events else e.isSuccess := by
  rw [endInSuccess, List.filter_append]
  cases h : e.isRefused <;> simp [endInSuccess, h]

end GeneratorEvent

/-- A generator in use: what has happened to it so far, and the world that it writes to. -/
structure Session (α σ S : Type) where
  generator : Generator α
  world : S
  events : List (GeneratorEvent α σ)

namespace Session

variable {α σ S : Type} [Arith α] [NumberText α] [Arith σ]

def call (source : TileSource σ) (session : Session α σ S) :
    GeneratorCall α σ S → Session α σ S
  | .set setting =>
    { session with
      generator := session.generator.set setting
      events := session.events ++ [.set setting] }
  | .generate w report =>
    let result := (session.generator.generate source w report).run session.world
    let logged := (session.generator.generate source w.logged (besideLog report)).run
      (session.world, [])
    { generator := result.1.2
      world := result.2
      events := session.events ++
        [.generated ⟨session.generator, result.1.1, result.1.2, logged.2.2⟩] }

/-- Calls one after the other on a new generator. -/
def run (name : Path) (source : TileSource σ) (world : S) (calls : List (GeneratorCall α σ S)) :
    Session α σ S :=
  calls.foldl (call source) ⟨.new name, world, []⟩

end Session

namespace Generator

section
variable {α σ : Type}

/-- What was last set, as far as it says something. -/
structure HasSettings (g : Generator α) (settings : List (Setting α)) : Prop where
  tileSize_eq : g.tileSize = (settings.filterMap Setting.tileSize?).getLast?.filter (· ≠ 0)
  fileType_eq : g.fileType = (settings.filterMap Setting.fileType?).getLast?.filter (!·.isEmpty)
  crop_eq : g.crop = (settings.filterMap Setting.crop?).getLast?
  format_eq : g.format = (settings.filterMap Setting.format?).getLast?

/-- Generators with the same settings, whatever their states. -/
structure SameSettings (g g' : Generator α) : Prop where
  name_eq : g'.name = g.name
  tileSize_eq : g'.tileSize = g.tileSize
  fileType_eq : g'.fileType = g.fileType
  format_eq : g'.format = g.format
  crop_eq : g'.crop = g.crop

theorem sameSettings_finish (g : Generator α) (outcome : Except Error TileTree) :
    g.SameSettings (g.start.finish outcome) := ⟨rfl, rfl, rfl, rfl, rfl⟩

theorem HasSettings.of_same {g g' : Generator α} {settings : List (Setting α)}
    (h : g.HasSettings settings) (hsame : g.SameSettings g') : g'.HasSettings settings where
  tileSize_eq := hsame.tileSize_eq.trans h.tileSize_eq
  fileType_eq := hsame.fileType_eq.trans h.fileType_eq
  crop_eq := hsame.crop_eq.trans h.crop_eq
  format_eq := hsame.format_eq.trans h.format_eq

private theorem getLast?_settings {β : Type} (f : Setting α → Option β)
    (settings : List (Setting α)) (setting : Setting α) :
    ((settings ++ [setting]).filterMap f).getLast? =
      (f setting).or (settings.filterMap f).getLast? := by
  rw [List.filterMap_append]
  cases h : f setting <;> simp [h]

theorem hasSettings_set {g : Generator α} {settings : List (Setting α)}
    (h : g.HasSettings settings) (setting : Setting α) :
    (g.set setting).HasSettings (settings ++ [setting]) where
  tileSize_eq := by
    rw [getLast?_settings]
    cases setting with
    | tileSize size =>
      by_cases hsize : size = 0 <;>
        simp [set, setTileSize, refresh, Setting.tileSize?, Option.filter, hsize]
    | _ => exact h.tileSize_eq
  fileType_eq := by
    rw [getLast?_settings]
    cases setting with
    | fileType name =>
      by_cases hname : name.isEmpty = true <;>
        simp [set, setFileType, refresh, Setting.fileType?, Option.filter, hname]
    | _ => exact h.fileType_eq
  crop_eq := by
    rw [getLast?_settings]
    cases setting with
    | crop box => rfl
    | _ => exact h.crop_eq
  format_eq := by
    rw [getLast?_settings]
    cases setting with
    | format f => rfl
    | viewer settings => rfl
    | _ => exact h.format_eq

theorem state_set (g : Generator α) (setting : Setting α) :
    (g.set setting).state =
      if (g.set setting).isReady then .configured else .unconfigured := by
  cases setting <;> rfl

theorem isReady_eq_false_iff {g : Generator α} :
    g.isReady = false ↔ g.tileSize = none ∨ g.fileType = none ∨ g.format = none := by
  simp only [isReady, Bool.and_eq_false_iff, Option.isSome_eq_false_iff, Option.isNone_iff_eq_none,
    or_assoc]

theorem HasSettings.exists_isConfigured {g : Generator α} {settings : List (Setting α)}
    (h : g.HasSettings settings) (hstate : g.state = .configured) (hready : g.isReady = true) :
    ∃ tileSize fileType format, g.IsConfigured tileSize fileType format := by
  have hsome : ¬(g.tileSize = none ∨ g.fileType = none ∨ g.format = none) := by
    rw [← isReady_eq_false_iff, hready]
    simp
  push Not at hsome
  obtain ⟨htile, htype, hformat⟩ := hsome
  obtain ⟨tileSize, htile⟩ := Option.ne_none_iff_exists'.mp htile
  obtain ⟨fileType, htype⟩ := Option.ne_none_iff_exists'.mp htype
  obtain ⟨format, hformat⟩ := Option.ne_none_iff_exists'.mp hformat
  have hlast := h.tileSize_eq.symm.trans htile
  have hpos := (Option.filter_eq_some_iff.mp hlast).2
  exact ⟨tileSize, fileType, format, hstate, htile, Nat.pos_of_ne_zero (by simpa using hpos),
    htype, hformat⟩

variable [Arith α] [NumberText α] [Arith σ]

theorem plan_ne_generatorIncomplete {g : Generator α} {tileSize : Nat} {fileType : String}
    {format : Format α} (h : g.IsConfigured tileSize fileType format) (source : TileSource σ) :
    (g.plan source).outcome ≠ .error (.configuration .generatorIncomplete) := by
  cases hwindow : (g.window source).isEmpty with
  | true =>
    rw [plan_of_isEmpty_window h hwindow]
    simp [Plan.fail]
  | false =>
    obtain ⟨rendered, hrender⟩ := exists_render_of_window h hwindow
    obtain ⟨hwhole, hlacking⟩ := cut_of_render (g.infoOf source tileSize fileType) format hrender
    rw [plan_of_window h hwindow]
    cases hmetadata : format.metadata (g.infoOf source tileSize fileType)
        (rendered.map RenderedTile.tile) with
    | ok files =>
      rw [(hwhole files hmetadata).2]
      simp
    | error fault =>
      rw [(hlacking fault hmetadata).2]
      rcases Format.metadata_eq_error hmetadata with rfl | rfl <;> simp

end
end Generator

/-- A request to generate that keeps to the rules. A refusal asks for nothing and changes nothing,
generation keeps all settings, and a generator that generates lacks none of them. The error that
says otherwise can only come from a writer. -/
structure Generation.IsOrderly {α σ : Type} [Arith α] [NumberText α] [Arith σ]
    (n : Generation α σ) (source : TileSource σ) : Prop where
  refused : n.before.state ≠ .configured → n.asked = [] ∧ n.after = n.before ∧
    n.outcome = .error (.configuration (.generatorBusy n.before.state))
  same : n.before.SameSettings n.after
  plan_ne : (n.before.plan source).outcome ≠ .error (.configuration .generatorIncomplete)
  from_writer : n.outcome = .error (.configuration .generatorIncomplete) →
    ∃ c, ⟨c, .error (.configuration .generatorIncomplete)⟩ ∈ n.asked

namespace Session

open GeneratorEvent

variable {α σ S : Type} [Arith α] [NumberText α] [Arith σ]

/-- What is true between two calls. -/
structure IsOrderly (session : Session α σ S) (source : TileSource σ)
    (settings : List (Setting α)) : Prop where
  hasSettings : session.generator.HasSettings settings
  state_eq : session.generator.state =
    if session.generator.isReady then
      if endInSuccess session.events then .complete else .configured
    else .unconfigured
  generations : ∀ n, .generated n ∈ session.events → n.IsOrderly source

namespace IsOrderly

variable {session : Session α σ S} {source : TileSource σ} {settings : List (Setting α)}

theorem state_of_isReady (h : session.IsOrderly source settings)
    (hready : session.generator.isReady = true) :
    session.generator.state =
      if endInSuccess session.events then .complete else .configured := by
  rw [h.state_eq, if_pos hready]

theorem state_eq_unconfigured_iff (h : session.IsOrderly source settings) :
    session.generator.state = .unconfigured ↔ session.generator.isReady = false := by
  cases hready : session.generator.isReady with
  | true =>
    rw [h.state_of_isReady hready]
    cases endInSuccess session.events <;> simp
  | false =>
    rw [h.state_eq, hready]
    simp

theorem isReady_of_configured (h : session.IsOrderly source settings)
    (hstate : session.generator.state = .configured) : session.generator.isReady = true := by
  rw [← Bool.not_eq_false, ← h.state_eq_unconfigured_iff, hstate]
  simp

theorem state_ne_generating (h : session.IsOrderly source settings) :
    session.generator.state ≠ .generating := by
  rw [h.state_eq]
  cases session.generator.isReady <;> cases endInSuccess session.events <;> simp

end IsOrderly

theorem isOrderly_new (name : Path) (source : TileSource σ) (world : S) :
    (⟨.new name, world, []⟩ : Session α σ S).IsOrderly source [] where
  hasSettings := ⟨rfl, rfl, rfl, rfl⟩
  state_eq := rfl
  generations n hn := by cases hn

theorem isOrderly_set {session : Session α σ S} {source : TileSource σ}
    {settings : List (Setting α)} (h : session.IsOrderly source settings) (setting : Setting α) :
    (session.call source (.set setting)).IsOrderly source (settings ++ [setting]) where
  hasSettings := Generator.hasSettings_set h.hasSettings setting
  state_eq := by
    rw [call, endInSuccess_append]
    exact Generator.state_set session.generator setting
  generations n hn := by
    rcases List.mem_append.mp hn with hn | hn
    · exact h.generations n hn
    · cases List.mem_singleton.mp hn

/-- A request at a bad time is only kept in mind. -/
theorem isOrderly_refused {session : Session α σ S} {source : TileSource σ}
    {settings : List (Setting α)} (h : session.IsOrderly source settings)
    (hstate : session.generator.state ≠ .configured) (w : TileWriter (StateM S) σ)
    (report : α → StateM S Unit) :
    (session.call source (.generate w report)).IsOrderly source settings := by
  have hcall : session.call source (.generate w report) = { session with
      events := session.events ++ [.generated ⟨session.generator,
        .error (.configuration (.generatorBusy session.generator.state)), session.generator,
          []⟩] } := by
    simp only [call, Generator.generate, if_pos hstate]
    rfl
  rw [hcall]
  refine ⟨h.hasSettings, ?_, fun n hn => ?_⟩
  · rw [endInSuccess_append]
    simpa only [isRefused, hstate, ne_eq, not_false_eq_true, decide_true, if_true]
      using h.state_eq
  · rcases List.mem_append.mp hn with hn | hn
    · exact h.generations n hn
    · obtain rfl := GeneratorEvent.generated.inj (List.mem_singleton.mp hn)
      refine ⟨fun _ => ⟨rfl, rfl, rfl⟩, ⟨rfl, rfl, rfl, rfl, rfl⟩, ?_, fun herror => ?_⟩
      · rw [Generator.plan, if_pos hstate]
        simp [Plan.fail]
      · cases herror

/-- A request at a good time is granted, and what the writer does decides about the state. -/
theorem isOrderly_generate {session : Session α σ S} {source : TileSource σ}
    {settings : List (Setting α)} (h : session.IsOrderly source settings)
    (hstate : session.generator.state = .configured) (w : TileWriter (StateM S) σ)
    (report : α → StateM S Unit) :
    (session.call source (.generate w report)).IsOrderly source settings := by
  have hready := h.isReady_of_configured hstate
  obtain ⟨tileSize, fileType, format, hconfigured⟩ :=
    h.hasSettings.exists_isConfigured hstate hready
  have hplan := Generator.plan_ne_generatorIncomplete hconfigured source
  obtain ⟨log, r, hlogged, hanswers, hresult⟩ :=
    Generator.run_generate_logged hstate source w report session.world
  rw [call, hlogged, hresult]
  refine ⟨?_, ?_, fun n hn => ?_⟩
  · exact h.hasSettings.of_same (Generator.sameSettings_finish _ _)
  · rw [endInSuccess_append]
    simp only [isRefused, hstate, ne_eq, not_true_eq_false, decide_false, Bool.false_eq_true,
      if_false, isSuccess]
    exact (if_pos hready).symm
  · rcases List.mem_append.mp hn with hn | hn
    · exact h.generations n hn
    · obtain rfl := GeneratorEvent.generated.inj (List.mem_singleton.mp hn)
      refine ⟨absurd hstate, Generator.sameSettings_finish _ _, hplan, fun herror => ?_⟩
      cases r with
      | ok _ => exact absurd herror hplan
      | error e =>
        obtain rfl := Except.error.inj herror
        exact hanswers.exists_failed rfl

theorem isOrderly_call {session : Session α σ S} {source : TileSource σ}
    {settings : List (Setting α)} (h : session.IsOrderly source settings)
    (c : GeneratorCall α σ S) :
    (session.call source c).IsOrderly source (settings ++ c.setting?.toList) := by
  cases c with
  | set setting => exact isOrderly_set h setting
  | generate w report =>
    rw [GeneratorCall.setting?, Option.toList_none, List.append_nil]
    by_cases hstate : session.generator.state = .configured
    · exact isOrderly_generate h hstate w report
    · exact isOrderly_refused h hstate w report

theorem isOrderly_foldl {session : Session α σ S} {source : TileSource σ}
    {settings : List (Setting α)} (h : session.IsOrderly source settings)
    (calls : List (GeneratorCall α σ S)) :
    (calls.foldl (call source) session).IsOrderly source
      (settings ++ calls.filterMap GeneratorCall.setting?) := by
  induction calls generalizing session settings with
  | nil => rwa [List.filterMap_nil, List.append_nil]
  | cons c calls ih =>
    have hrest := ih (isOrderly_call h c)
    rw [List.append_assoc] at hrest
    rw [List.foldl_cons, List.filterMap_cons]
    cases hc : c.setting? <;> rwa [hc] at hrest

/-- Whatever is called on a new generator, it is never left generating. It is unconfigured as long
as its tile size, its file type or its format is missing, where zero and the empty text count for
nothing. Otherwise it is complete if the last call that was not refused is a generation that
succeeded, and configured if not. A writer is asked for something by a configured generator only,
and generation keeps the settings however it ends. -/
theorem run_state (name : Path) (source : TileSource σ) (world : S)
    (calls : List (GeneratorCall α σ S)) :
    let session := run name source world calls
    let g := session.generator
    let isMissing := g.tileSize = none ∨ g.fileType = none ∨ g.format = none
    g.HasSettings (calls.filterMap GeneratorCall.setting?) ∧ g.state ≠ .generating ∧
      (g.state = .unconfigured ↔ isMissing) ∧
      (¬isMissing → (g.state = .complete ↔ endInSuccess session.events = true) ∧
        (g.state = .configured ↔ endInSuccess session.events = false)) ∧
      ∀ n, .generated n ∈ session.events →
        (n.asked ≠ [] → n.before.state = .configured) ∧ n.IsOrderly source := by
  intro session g isMissing
  have horderly : session.IsOrderly source (calls.filterMap GeneratorCall.setting?) :=
    isOrderly_foldl (isOrderly_new name source world) calls
  have hmissing : g.isReady = false ↔ isMissing := Generator.isReady_eq_false_iff
  refine ⟨horderly.hasSettings, horderly.state_ne_generating, ?_, ?_, ?_⟩
  · rw [← hmissing]
    exact horderly.state_eq_unconfigured_iff
  · rw [← hmissing, Bool.not_eq_false]
    intro hready
    have hstate : g.state = if endInSuccess session.events then .complete else .configured :=
      horderly.state_of_isReady hready
    rw [hstate]
    cases endInSuccess session.events <;> simp
  · intro n hn
    have hgeneration := horderly.generations n hn
    refine ⟨fun hasked => ?_, hgeneration⟩
    by_contra hother
    exact hasked (hgeneration.refused hother).1

/-- A generation that finds nothing to write, one that succeeds, one that is refused, and a size
that is none. -/
example :
    let image : TileSource Float32 := (Raster.blank 2 2 1 .u8 : Raster Float32).tileSource
    let generate : GeneratorCall Float Float32 (List (Path × Raster Float32)) :=
      .generate .recorder fun _ => pure ()
    let calls := [.set (.format (.ofMode .plain)), .set (.fileType "png"), .set (.tileSize 1),
      .set (.crop ⟨2, 2, 4, 4⟩), generate, .set (.crop ⟨1, 1, 4, 4⟩), generate, generate,
      .set (.tileSize 0)]
    calls.inits.map (fun calls => (run ⟨"map"⟩ image [] calls).generator.state) =
      [.unconfigured, .unconfigured, .unconfigured, .configured, .configured, .configured,
        .configured, .complete, .complete, .unconfigured] := by
  decide +kernel

end Session
end TilePyramid
