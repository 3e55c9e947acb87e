import VorbisTrack.Proofs.Command.Encode
import VorbisTrack.Proofs.Matroska.Confinement
import VorbisTrack.Proofs.Storage.Path

/-!
# The outputs of several inputs

An output that names a file is for one input only. In a directory the output of an input is named
for the stem of the input alone, whatever directory that is in and whatever its extension, so two
inputs share an output if and only if they have the same stem (`IsAssigned.shared`).

Encoding a file changes its output and no other entry of the tree (`encodeFile_keepsTo`). Outputs of
different names are different files, wherever the directory leads. So inputs of different stems are
encoded as if each were the only one: every output is in the end what its own encoding has made of
it, whatever the order of the encodings (`outputPaths_areAssigned`). Inputs of the same stem are not
refused, and their encodings write one file (`outputPaths_of_sameStem`).
-/

set_option autoImplicit false

namespace VorbisTrack.Command

open Matroska (Muxer)

variable {σ : Type} {lib : Library σ} {location : Location}

/-! ## Encoding changes the output only -/

namespace Job

theorem keepsTo_drain (job : Job lib) (h : job.muxer.WritesTo location) :
    Muxer.KeepsTo location job.files job.drain.2.muxer job.drain.2.files := by
  fun_induction drain job with
  | case1 job failure encoder received => exact h.keepsTo job.files
  | case2 job packet encoder received failure muxer files written =>
    have one := h.writePacket packet job.files
    rwa [written] at one
  | case3 job packet encoder received muxer files written ih =>
    have one := h.writePacket packet job.files
    rw [written] at one
    exact one.trans (ih one.writesTo)

theorem keepsTo_encode (job : Job lib) (h : job.muxer.WritesTo location) (frame : Frame) :
    Muxer.KeepsTo location job.files (job.encode frame).2.muxer (job.encode frame).2.files := by
  unfold encode
  split
  · exact h.keepsTo job.files
  · next encoder taken =>
    rw [job_drainUntil]
    exact keepsTo_drain
      { job with
        encoder
        tally := { job.tally with samples := job.tally.samples + frame.sampleCount } } h

theorem keepsTo_encodeAll (demuxer : Wav.Demuxer) (job : Job lib)
    (h : job.muxer.WritesTo location) :
    Muxer.KeepsTo location job.files (job.encodeAll demuxer).2.muxer
      (job.encodeAll demuxer).2.files := by
  fun_induction encodeAll demuxer job with
  | case1 demuxer job => exact h.keepsTo job.files
  | case2 demuxer job => exact h.keepsTo job.files
  | case3 demuxer job _ _ _ frame _ failure job' encoded =>
    have one := keepsTo_encode job h frame
    rwa [encoded] at one
  | case4 demuxer job _ _ _ frame _ job' encoded ih =>
    have one := keepsTo_encode job h frame
    rw [encoded] at one
    exact one.trans (ih one.writesTo)

theorem keepsTo_finish (job : Job lib) (h : job.muxer.WritesTo location) :
    Muxer.KeepsTo location job.files job.finish.2.muxer job.finish.2.files := by
  unfold finish
  split
  · exact h.keepsTo job.files
  · next encoder flushed =>
    have drained := keepsTo_drain { job with encoder } h
    rw [← job_drainUntil .endOfStream] at drained
    generalize drainUntil .endOfStream { job with encoder } = reply at drained
    obtain ⟨result, job'⟩ := reply
    cases result with
    | error failure => exact drained
    | ok => exact drained.trans (drained.writesTo.writeTrailer job'.files)

theorem keepsTo_run (demuxer : Wav.Demuxer) (job : Job lib) (h : job.muxer.WritesTo location) :
    Muxer.KeepsTo location job.files (job.run demuxer).2.muxer (job.run demuxer).2.files := by
  have all := keepsTo_encodeAll demuxer job h
  unfold run
  generalize job.encodeAll demuxer = reply at all
  obtain ⟨result, job'⟩ := reply
  cases result with
  | error failure => exact all
  | ok => exact all.trans (keepsTo_finish job' all.writesTo)

end Job

theorem keepsTo_begin {m : Muxer} (h : m.WritesTo location) (stream : Stream) (files : FileTree) :
    Muxer.KeepsTo location files (begin m stream files).2.1 (begin m stream files).2.2 := by
  have added := h.addStream stream
  unfold begin
  generalize m.addStream stream = reply at added
  obtain ⟨result, m'⟩ := reply
  cases result with
  | error failure => exact added.keepsTo files
  | ok count => exact added.writeHeader files

/-- A muxer that is new has no file yet. -/
theorem output_of_ofFormat {format : String} {muxer : Muxer}
    (made : Muxer.ofFormat format = .ok muxer) : muxer.output = none := by
  unfold Muxer.ofFormat at made
  split at made
  · cases made
    rfl
  · cases made

/-- What becomes of the files when an output is opened: it is not created, or only it changes. -/
theorem openOutput_keepsTo (output : String) (stream : Stream) (files : FileTree) :
    (∃ fault, openOutput output stream files = (.error fault, files)) ∨
    ∃ location, files.locate (.ofText output) = .ok location ∧
      files.ChangesOnly location (openOutput output stream files).2 ∧
      ∀ muxer, (openOutput output stream files).1 = .ok muxer → muxer.WritesTo location := by
  unfold openOutput
  split
  · exact .inl ⟨_, rfl⟩
  · next muxer format =>
    cases made : files.create (.ofText output) with
    | error fault =>
      left
      simp only [Muxer.create, made]
      exact ⟨_, rfl⟩
    | ok place =>
      obtain ⟨location, created⟩ := place
      obtain ⟨located, -, changed, -⟩ := FileTree.of_create made
      right
      refine ⟨location, located, ?_⟩
      have closed := output_of_ofFormat format
      have ready := (Muxer.create_eq_ok closed made).1
      have writesTo : Muxer.WritesTo { muxer with output := some { location } } location := by
        intro file same
        cases same
        rfl
      rw [ready]
      have begun := keepsTo_begin writesTo stream created
      simp only
      generalize begin { muxer with output := some { location } } stream created = reply at begun
      obtain ⟨result, muxer', files'⟩ := reply
      have opened := changed.trans begun.files
      cases result with
      | error failure =>
        exact ⟨opened.trans (begun.writesTo.release files'), fun _ same => by cases same⟩
      | ok =>
        refine ⟨opened, ?_⟩
        intro muxer same
        cases same
        exact begun.writesTo

/-- **Encoding a file changes its output only**, whether it succeeds or not. -/
theorem encodeFile_keepsTo (lib : Library σ) (tuning : Tuning) (input output : String)
    (files : FileTree) :
    (encodeFile lib tuning input output files).files = files ∨
    ∃ location, files.locate (.ofText output) = .ok location ∧
      files.ChangesOnly location (encodeFile lib tuning input output files).files := by
  unfold encodeFile
  split
  · exact .inl rfl
  · next source settings _ =>
    split
    · exact .inl rfl
    · next encoder _ _ =>
      rcases openOutput_keepsTo output (streamOf encoder settings) files with
        ⟨fault, unopened⟩ | ⟨location, located, changed, writesTo⟩
      · rw [unopened]
        exact .inl rfl
      · right
        refine ⟨location, located, ?_⟩
        generalize openOutput output (streamOf encoder settings) files = reply at changed writesTo
        obtain ⟨result, files'⟩ := reply
        cases result with
        | error fault => exact changed
        | ok muxer =>
          have ran := Job.keepsTo_run (.holding {} source)
            { input := .ofText input, encoder, muxer, files := files' } (writesTo muxer rfl)
          exact (changed.trans ran.files).trans (ran.writesTo.release _)

/-- An entry that the output does not lead to stays as it was. -/
theorem node?_encodeFile (lib : Library σ) (tuning : Tuning) (input output : String)
    {files : FileTree} (apart : files.locate (.ofText output) ≠ .ok location) :
    (encodeFile lib tuning input output files).files.node? location = files.node? location := by
  rcases encodeFile_keepsTo lib tuning input output files with same | ⟨place, located, changed⟩
  · rw [same]
  · apply changed.elsewhere
    rintro rfl
    exact apart located

/-! ## Several files -/

/-- An entry that no output leads to stays as it was. -/
theorem node?_encodeEach (lib : Library σ) (tuning : Tuning) {pairs : List (String × String)}
    (apart : ∀ pair ∈ pairs, ∀ t : FileTree, t.locate (.ofText pair.2) ≠ .ok location)
    (files : FileTree) :
    (encodeEach lib tuning pairs files).2.node? location = files.node? location := by
  induction pairs generalizing files with
  | nil => rfl
  | cons pair rest ih =>
    obtain ⟨input, output⟩ := pair
    rw [encodeEach]
    rw [ih (fun pair member => apart pair (List.mem_cons_of_mem _ member)),
      node?_encodeFile lib tuning input output (apart _ (List.mem_cons_self ..) files)]

theorem files_encodeEach_append (lib : Library σ) (tuning : Tuning)
    (before behind : List (String × String)) (files : FileTree) :
    (encodeEach lib tuning (before ++ behind) files).2 =
      (encodeEach lib tuning behind (encodeEach lib tuning before files).2).2 := by
  induction before generalizing files with
  | nil => rfl
  | cons pair rest ih => exact ih _

/-- No encoding touches the output of another. Each finds at its output what was there at first, and
what it leaves there stays. -/
def EncodesApart (lib : Library σ) (tuning : Tuning) (pairs : List (String × String))
    (files : FileTree) : Prop :=
  ∀ before input output behind, pairs = before ++ (input, output) :: behind →
    ∀ (t : FileTree) (location : Location), t.locate (.ofText output) = .ok location →
      (encodeEach lib tuning before files).2.node? location = files.node? location ∧
      (encodeEach lib tuning pairs files).2.node? location =
        (encodeFile lib tuning input output
          (encodeEach lib tuning before files).2).files.node? location

theorem encodesApart_of_pairwise (lib : Library σ) (tuning : Tuning)
    {pairs : List (String × String)}
    (apart : pairs.Pairwise fun pair pair' => ∀ (t t' : FileTree) (location : Location),
      t.locate (.ofText pair.2) = .ok location → t'.locate (.ofText pair'.2) ≠ .ok location)
    (files : FileTree) : EncodesApart lib tuning pairs files := by
  rintro before input output behind rfl t location located
  obtain ⟨-, later, earlier⟩ := List.pairwise_append.mp apart
  have later := (List.pairwise_cons.mp later).1
  constructor
  · apply node?_encodeEach
    intro pair member t' located'
    exact earlier pair member _ (List.mem_cons_self ..) t' t location located' located
  · rw [files_encodeEach_append, encodeEach]
    apply node?_encodeEach
    intro pair member t'
    exact later pair member t t' location located

/-! ## The choice of outputs -/

def stem? (input : String) : Option String :=
  (Path.ofText input).fileStem?

def webmIn (directory stem : String) : String :=
  Path.join directory (stem ++ ".webm")

/-- Whether an output names a file that can be written. Any other output is a directory. -/
def namesFile (output : String) : Bool :=
  (FormatInfo.ofPath? output).any FormatInfo.mux

theorem isName_webm {stem : String} (slashless : '/' ∉ stem.toList) :
    Path.IsName (stem ++ ".webm") := by
  have same : (stem ++ ".webm").toList = stem.toList ++ ['.', 'w', 'e', 'b', 'm'] := by
    rw [String.toList_append]
    rfl
  constructor
  · rw [same]
    simp
  · rw [same]
    simp [slashless]
  · -- The name has five characters at least.
    rw [same]
    constructor <;>
    · intro short
      have := congrArg List.length short
      simp at this

theorem webmIn_inj {directory stem stem' : String} :
    webmIn directory stem = webmIn directory stem' ↔ stem = stem' := by
  constructor
  · intro same
    simpa using Path.eq_of_join_eq same
  · rintro rfl
    rfl

/-- Outputs for different stems are different files, wherever the directory leads. -/
theorem ne_of_locate_webmIn {directory stem stem' : String} (slashless : '/' ∉ stem.toList)
    (slashless' : '/' ∉ stem'.toList) (apart : stem ≠ stem') {t t' : FileTree}
    (located : t.locate (.ofText (webmIn directory stem)) = .ok location) :
    t'.locate (.ofText (webmIn directory stem')) ≠ .ok location := by
  intro located'
  refine FileTree.ne_of_locate (Path.getLast?_steps_join directory (isName_webm slashless))
    (Path.getLast?_steps_join directory (isName_webm slashless')) ?_ located located' rfl
  intro same
  exact apart (by simpa using same)

/-- The stems of paths hold no slash. -/
theorem slashless_of_map_stem? {inputs stems : List String} {stem : String}
    (same : inputs.map stem? = stems.map some) (member : stem ∈ stems) : '/' ∉ stem.toList := by
  have : some stem ∈ inputs.map stem? := same ▸ List.mem_map_of_mem member
  obtain ⟨input, -, found⟩ := List.mem_map.mp this
  exact Path.slashless_of_fileStem? found

/-- In a directory each input has the output for its stem. -/
theorem exists_stems_of_mapM {directory : String} {inputs outputs : List String}
    (named : inputs.mapM (outputIn directory) = .ok outputs) :
    ∃ stems : List String, inputs.map stem? = stems.map some ∧
      outputs = stems.map (webmIn directory) := by
  induction inputs generalizing outputs with
  | nil =>
    cases named
    exact ⟨[], rfl, rfl⟩
  | cons input rest ih =>
    rw [List.mapM_cons] at named
    cases stem : stem? input with
    | none =>
      have unnamed : outputIn directory input = .error (.inputUnnamed input) := by
        rw [outputIn, show (Path.ofText input).fileStem? = none from stem]
      rw [unnamed] at named
      cases named
    | some name =>
      have first : outputIn directory input = .ok (webmIn directory name) := by
        rw [outputIn, show (Path.ofText input).fileStem? = some name from stem]
        rfl
      cases others : rest.mapM (outputIn directory) with
      | error fault =>
        rw [first, others] at named
        cases named
      | ok outputs' =>
        rw [first, others] at named
        cases named
        obtain ⟨stems, same, rfl⟩ := ih others
        exact ⟨name :: stems, by rw [List.map_cons, stem, same, List.map_cons], rfl⟩

structure IsAssigned (inputs : List String) (output : String) (outputs : List String) : Prop where
  /-- A file is for one input only. -/
  file : namesFile output = true → inputs.length ≤ 1 ∧ outputs = [output]
  /-- In a directory each input has the output for its stem, in the order of the inputs. -/
  directory : namesFile output = false →
    ∃ stems : List String, inputs.map stem? = stems.map some ∧ outputs = stems.map (webmIn output)
  length : inputs ≠ [] → outputs.length = inputs.length
  /-- Inputs share an output if and only if they have the same stem. -/
  shared : ∀ i j (hi : i < inputs.length) (hj : j < inputs.length),
    outputs[i]? = outputs[j]? ↔ stem? inputs[i] = stem? inputs[j]
  distinct : outputs.Nodup ↔ (inputs.map stem?).Nodup
  /-- Outputs that are not the same are different files. -/
  apart : ∀ path ∈ outputs, ∀ path' ∈ outputs, path ≠ path' →
    ∀ (t t' : FileTree) (location : Location),
      t.locate (.ofText path) = .ok location → t'.locate (.ofText path') ≠ .ok location

theorem isAssigned_of_file {inputs : List String} {output : String}
    (names : namesFile output = true) (few : inputs.length ≤ 1) :
    IsAssigned inputs output [output] := by
  constructor
  case file => exact fun _ => ⟨few, rfl⟩
  case directory =>
    intro directory
    rw [names] at directory
    cases directory
  case length =>
    intro some_
    have := List.length_pos_iff.mpr some_
    rw [List.length_singleton]
    omega
  case shared =>
    intro i j hi hj
    obtain rfl : i = j := by omega
    exact ⟨fun _ => rfl, fun _ => rfl⟩
  case distinct =>
    refine ⟨fun _ => ?_, fun _ => List.pairwise_singleton ..⟩
    match inputs, few with
    | [], _ => exact List.nodup_nil
    | [input], _ => exact List.pairwise_singleton ..
  case apart =>
    intro path member path' member' other
    rw [List.mem_singleton.mp member, List.mem_singleton.mp member'] at other
    exact absurd rfl other

theorem isAssigned_of_directory {inputs stems : List String} {output : String}
    (names : namesFile output = false) (same : inputs.map stem? = stems.map some) :
    IsAssigned inputs output (stems.map (webmIn output)) := by
  have long : stems.length = inputs.length := by
    have := congrArg List.length same
    rw [List.length_map, List.length_map] at this
    exact this.symm
  constructor
  case file =>
    intro file
    rw [names] at file
    cases file
  case directory => exact fun _ => ⟨stems, same, rfl⟩
  case length =>
    intro _
    rw [List.length_map, long]
  case shared =>
    intro i j hi hj
    have at_ (k : Nat) (hk : k < inputs.length) : some (stem? inputs[k]) = stems[k]?.map some := by
      have : (inputs.map stem?)[k]? = (stems.map some)[k]? := by rw [same]
      simpa [hk] using this
    have stems_ : stem? inputs[i] = stem? inputs[j] ↔
        stems[i]?.map some = stems[j]?.map some := by
      rw [← at_ i hi, ← at_ j hj, Option.some_inj]
    rw [stems_]
    simp [hi, hj, long, webmIn_inj]
  case distinct =>
    rw [same]
    simp only [List.Nodup, List.pairwise_map, ne_eq, webmIn_inj, Option.some.injEq]
  case apart =>
    intro path member path' member' other t t' location
    obtain ⟨stem, from_, rfl⟩ := List.mem_map.mp member
    obtain ⟨stem', from_', rfl⟩ := List.mem_map.mp member'
    refine ne_of_locate_webmIn (slashless_of_map_stem? same from_)
      (slashless_of_map_stem? same from_') ?_
    rintro rfl
    exact other rfl

theorem isAssigned_of_outputPaths {inputs outputs : List String} {output : String}
    {files files' : FileTree} (chosen : outputPaths inputs output files = (.ok outputs, files')) :
    IsAssigned inputs output outputs := by
  unfold outputPaths at chosen
  split at chosen
  · next names =>
    split at chosen
    · cases chosen
    · next few =>
      cases chosen
      exact isAssigned_of_file names (Nat.le_of_not_lt few)
  · next names =>
    split at chosen
    · cases chosen
    · obtain ⟨stems, same, rfl⟩ := exists_stems_of_mapM (congrArg Prod.fst chosen)
      exact isAssigned_of_directory (Bool.eq_false_iff.mpr names) same

/-- **Inputs of different stems have outputs of their own.** Every input is assigned one output, in
the order of the inputs, and inputs share an output if and only if they have the same stem. If no
two have, then no encoding touches the output of another, in whatever order the files are
encoded. -/
theorem outputPaths_areAssigned {inputs outputs : List String} {output : String}
    {files files' : FileTree} (chosen : outputPaths inputs output files = (.ok outputs, files')) :
    IsAssigned inputs output outputs ∧
      ((inputs.map stem?).Nodup → ∀ (σ : Type) (lib : Library σ) (tuning : Tuning)
        (pairs : List (String × String)), pairs.Perm (inputs.zip outputs) →
          EncodesApart lib tuning pairs files') := by
  have assigned := isAssigned_of_outputPaths chosen
  refine ⟨assigned, fun different σ lib tuning pairs order => ?_⟩
  have outputs_ : ∀ pair ∈ pairs, pair.2 ∈ outputs := by
    intro pair member
    exact (List.of_mem_zip (order.mem_iff.mp member)).2
  -- The outputs of the pairs are some of those that have been chosen.
  have distinct : (pairs.map Prod.snd).Nodup := by
    rw [(order.map Prod.snd).nodup_iff]
    by_cases none : inputs = []
    · subst none
      exact List.nodup_nil
    · rw [List.map_snd_zip (Nat.le_of_eq (assigned.length none))]
      exact assigned.distinct.mpr different
  apply encodesApart_of_pairwise
  refine List.Pairwise.imp_of_mem ?_ (List.pairwise_map.mp distinct)
  intro pair pair' member member' other
  exact assigned.apart _ (outputs_ _ member) _ (outputs_ _ member') other

/-- Files in directories of their own. -/
def splitFiles : FileTree where
  entries :=
    [(["a"], .directory), (["b"], .directory), (["a", "one.wav"], .file rampWav),
      (["b", "one.wav"], .file rampWav), (["b", "two.wav"], .file rampWav)]

/-- The directory for the outputs is made. -/
theorem outputPaths_split (inputs : List String) :
    ∃ files', outputPaths inputs "out" splitFiles = (inputs.mapM (outputIn "out"), files') := by
  have names : (FormatInfo.ofPath? "out").any FormatInfo.mux = false := by decide
  have made : splitFiles.ensureDirectories (.ofText "out") =
      .ok (splitFiles.put ["out"] .directory) := by
    rw [FileTree.ensureDirectories, if_neg (by decide)]
    rfl
  refine ⟨splitFiles.put ["out"] .directory, ?_⟩
  simp only [outputPaths, names, made, Bool.false_eq_true, if_false]

theorem outputPaths_areAssigned_split :
    ∃ files', outputPaths ["a/one.wav", "b/two.wav"] "out" splitFiles =
        (.ok ["out/one.webm", "out/two.webm"], files') ∧
      (["a/one.wav", "b/two.wav"].map stem?).Nodup ∧
      IsAssigned ["a/one.wav", "b/two.wav"] "out" ["out/one.webm", "out/two.webm"] ∧
      EncodesApart pairLibrary { bitrate := some "32000" }
        [("b/two.wav", "out/two.webm"), ("a/one.wav", "out/one.webm")] files' := by
  obtain ⟨files', chosen⟩ := outputPaths_split ["a/one.wav", "b/two.wav"]
  rw [show ["a/one.wav", "b/two.wav"].mapM (outputIn "out") =
    .ok ["out/one.webm", "out/two.webm"] from rfl] at chosen
  have different : (["a/one.wav", "b/two.wav"].map stem?).Nodup := by decide
  obtain ⟨assigned, encodes⟩ := outputPaths_areAssigned chosen
  exact ⟨files', chosen, different, assigned,
    encodes different _ pairLibrary _ _ (List.Perm.swap ..)⟩

/-- Files of the same name in two directories are given one output. -/
theorem outputPaths_of_sameStem :
    ["a/one.wav", "b/one.wav"].Nodup ∧
      ∃ files', outputPaths ["a/one.wav", "b/one.wav"] "out" splitFiles =
        (.ok ["out/one.webm", "out/one.webm"], files') := by
  obtain ⟨files', chosen⟩ := outputPaths_split ["a/one.wav", "b/one.wav"]
  exact ⟨by decide, files', chosen⟩

end VorbisTrack.Command
