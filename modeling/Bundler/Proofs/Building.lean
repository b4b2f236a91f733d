import Bundler.Build
import Bundler.Proofs.Dependence

/-!
# What a build leaves behind

A build is refused before it writes anything, or it ends as the write of its text does
(`Host.build_cases`). A build that succeeds returns the bundle of the files that it found, and
writes its text (`Host.build_eq_ok`). If the output is none of the modules, the files still give the
same bundle after that, and the output holds its text (`Host.upToDate_of_build`). This remains so as
long as no module and not the output gets another content (`Workspace.UpToDate.of_kept`).
-/

namespace Bundler

/-- The output is none of the modules, and no module has a second slash in front. -/
structure Apart (output : Path) (modules : List Path) : Prop where
  notMem : output ∉ modules
  single : ∀ path ∈ modules, path.root ≠ "//"

instance (output : Path) (modules : List Path) : Decidable (Apart output modules) :=
  decidable_of_iff (output ∉ modules ∧ ∀ path ∈ modules, path.root ≠ "//")
    ⟨fun h => ⟨h.1, h.2⟩, fun h => ⟨h.notMem, h.single⟩⟩

namespace Workspace

variable {space other : Workspace} {config : Config} {bundle : Bundle}

/-- The bundle is the one that the files give, and the output holds its text. -/
structure UpToDate (space : Workspace) (config : Config) (bundle : Bundle) : Prop where
  bundle_eq : space.bundle config.extension config.entry = .ok bundle
  content_eq : space.content? (space.absolute config.output) = some bundle.text.toUTF8

/-- All files but the modules and the output may change. -/
theorem UpToDate.of_kept (h : space.UpToDate config bundle) (rooted : space.cwd.isAbsolute = true)
    (hcwd : other.cwd = space.cwd)
    (hkept : ∀ path ∈ space.absolute config.output :: bundle.modules, ∀ content,
      space.content? path = some content → other.content? path = some content) :
    other.UpToDate config bundle where
  bundle_eq := bundle_of_contents rooted h.bundle_eq hcwd fun path hp =>
    hkept path (List.mem_cons_of_mem _ hp)
  content_eq := by
    rw [absolute_congr hcwd]
    exact hkept _ List.mem_cons_self _ h.content_eq

/-- The text of a bundle can be written to an output apart from its modules without a change to the
bundle. -/
theorem upToDate_of_writeText {output : Path} {after : Workspace}
    (rooted : space.cwd.isAbsolute = true)
    (hb : space.bundle config.extension config.entry = .ok bundle)
    (ho : output = space.absolute config.output) (single : output.root ≠ "//")
    (apart : Apart output bundle.modules)
    (hw : space.writeText output bundle.text = (after, .ok ())) :
    after.cwd = space.cwd ∧ after.UpToDate config bundle := by
  have hcanonical : output.Canonical := ho ▸ Path.canonical_absolute rooted
  have hself : space.absolute output = output := hcanonical.absolute_eq
  have hafter : (space.writeText output bundle.text).1 = after := congrArg Prod.fst hw
  have hok : (space.writeText output bundle.text).2 = .ok () := congrArg Prod.snd hw
  have hcwd : after.cwd = space.cwd := hafter ▸ cwd_writeThrough _ _ _
  refine ⟨hcwd, bundle_of_contents rooted hb hcwd fun path hp content hc => ?_, ?_⟩
  · have hne : path ≠ output := by
      rintro rfl
      exact apart.notMem hp
    rw [← hafter]
    exact content?_writeThrough rooted (canonical_of_mem_modules rooted hb hp)
      (apart.single path hp) (hself.symm ▸ single) (hself.symm ▸ hne) hc
  · rw [absolute_congr hcwd, ← ho, ← hafter]
    exact content?_writeThrough_self rooted hcanonical hok

end Workspace

namespace Host

variable {host after : Host} {config : Config} {bundle : Bundle}

/-- A write changes the files and ends as writing the text does; what is told about it changes
nothing more. -/
theorem write_eq (host : Host) (start : Reading) (output : Path) (text : String) :
    (host.write start output text).1.workspace = (host.workspace.writeText output text).1 ∧
      (host.write start output text).2 = (host.workspace.writeText output text).2 := by
  unfold write
  generalize host.workspace.writeText output text = outcome
  obtain ⟨space, _ | _⟩ := outcome
  · exact ⟨rfl, rfl⟩
  · simp

/-- What is told about the changes of the text changes no file either. -/
@[simp] theorem workspace_reportDiff (host : Host) (old new : String) :
    (host.reportDiff old new).workspace = host.workspace := by
  unfold reportDiff reportChanges
  split <;> simp

/-- A build that has its bundle, and can read the output if it is to report changes, ends as the
write of the text does. -/
theorem build_of_bundle {previous : String}
    (hp : (if config.diff then
        host.workspace.readPrevious (host.workspace.absolute config.output) else .ok "") =
      .ok previous)
    (hb : host.workspace.bundle config.extension config.entry = .ok bundle) :
    (host.build config).1.workspace =
        (host.workspace.writeText (host.workspace.absolute config.output) bundle.text).1 ∧
      (host.build config).2 =
        (host.workspace.writeText (host.workspace.absolute config.output) bundle.text).2.map
          fun _ => bundle := by
  obtain ⟨ticked, start, ht⟩ : ∃ ticked start, host.tick = (ticked, start) := ⟨_, _, rfl⟩
  have hticked : ticked.workspace = host.workspace := by
    rw [← host.workspace_tick, ht]
  have hwrite := write_eq (ticked.debug ("Resolved " ++ toString bundle.modules.length
    ++ " module(s) from " ++ ticked.display bundle.entry)) start
    (host.workspace.absolute config.output) bundle.text
  rw [workspace_debug, hticked] at hwrite
  unfold build
  simp only [ht]
  rw [hticked, hp]
  dsimp only
  rw [hb]
  dsimp only
  split
  · next written error hw =>
    rw [hw] at hwrite
    exact ⟨hwrite.1, by rw [← hwrite.2]; rfl⟩
  · next written hw =>
    rw [hw] at hwrite
    refine ⟨?_, by rw [← hwrite.2]; rfl⟩
    rw [← hwrite.1]
    dsimp only
    split
    · exact workspace_reportDiff _ _ _
    · rfl

/-- A build is refused before it writes anything, or it writes the text of its bundle and ends as
the write does. -/
theorem build_cases (host : Host) (config : Config) :
    ((host.build config).1.workspace = host.workspace ∧
      ∃ error, (host.build config).2 = .error error) ∨
    ∃ bundle, host.workspace.bundle config.extension config.entry = .ok bundle ∧
      (host.build config).1.workspace =
        (host.workspace.writeText (host.workspace.absolute config.output) bundle.text).1 ∧
      (host.build config).2 =
        (host.workspace.writeText (host.workspace.absolute config.output) bundle.text).2.map
          fun _ => bundle := by
  cases hp : (if config.diff then
    host.workspace.readPrevious (host.workspace.absolute config.output) else .ok "") with
  | error error =>
    refine .inl ?_
    unfold build
    simp only [workspace_tick, hp]
    exact ⟨trivial, error, rfl⟩
  | ok previous =>
    cases hb : host.workspace.bundle config.extension config.entry with
    | error error =>
      refine .inl ?_
      unfold build
      simp only [workspace_tick, hp, hb]
      exact ⟨trivial, error, rfl⟩
    | ok bundle => exact .inr ⟨bundle, rfl, build_of_bundle hp hb⟩

/-- A build that succeeds has made the bundle from the files that it found, and written its text. -/
theorem build_eq_ok (h : host.build config = (after, .ok bundle)) :
    host.workspace.bundle config.extension config.entry = .ok bundle ∧
      host.workspace.writeText (host.workspace.absolute config.output) bundle.text =
        (after.workspace, .ok ()) := by
  rcases build_cases host config with ⟨-, error, he⟩ | ⟨found, hb, hspace, hend⟩
  · rw [h] at he
    cases he
  · rw [h] at hspace hend
    generalize hw : host.workspace.writeText (host.workspace.absolute config.output) found.text =
      outcome at hspace hend
    obtain ⟨space, _ | _⟩ := outcome
    · cases hend
    · cases hend
      cases hspace
      exact ⟨hb, hw⟩

/-- A build that is refused has changed no file, or it had its bundle and the write was refused. -/
theorem build_eq_error {error : Error} (h : (host.build config).2 = .error error) :
    (host.build config).1.workspace = host.workspace ∨
    ∃ bundle, host.workspace.bundle config.extension config.entry = .ok bundle ∧
      (host.build config).1.workspace =
        (host.workspace.writeText (host.workspace.absolute config.output) bundle.text).1 ∧
      (host.workspace.writeText (host.workspace.absolute config.output) bundle.text).2 =
        .error error := by
  rcases build_cases host config with ⟨hspace, -⟩ | ⟨bundle, hb, hspace, hend⟩
  · exact .inl hspace
  · refine .inr ⟨bundle, hb, hspace, ?_⟩
    rw [h] at hend
    cases hw : (host.workspace.writeText (host.workspace.absolute config.output) bundle.text).2 with
    | error refusal =>
      rw [hw] at hend
      cases hend
      rfl
    | ok =>
      rw [hw] at hend
      cases hend

/-- After a build that succeeds, the bundle is the one of the files as they are then. -/
theorem upToDate_of_build (h : host.build config = (after, .ok bundle))
    (rooted : host.workspace.cwd.isAbsolute = true)
    (single : (host.workspace.absolute config.output).root ≠ "//")
    (apart : Apart (host.workspace.absolute config.output) bundle.modules) :
    after.workspace.cwd = host.workspace.cwd ∧ after.workspace.UpToDate config bundle := by
  obtain ⟨hb, hw⟩ := build_eq_ok h
  exact Workspace.upToDate_of_writeText rooted hb rfl single apart hw

end Host

end Bundler
