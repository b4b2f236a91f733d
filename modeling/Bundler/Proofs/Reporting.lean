import Bundler.Proofs.Messages
import Bundler.Proofs.Writing

/-!
# Builds that report changes

A build that reports changes reads the output first. Otherwise it is the build without a report
(`Host.build_reporting`).

* `Workspace.readPrevious_of_content?`: the text of a bundle is read as it was written, because it
  has no carriage return in it (`Workspace.notMem_of_bundle`).
* `Host.diff_of_consecutive_builds`: so a build reports the changes from the text that the build
  before it has written, and none if nothing was changed in between.
* `Host.diffOnlyReports_iff`: to ask for a report can make a build fail, but only where the output
  is a file whose bytes are no text.
-/

namespace Bundler

/-! ## The text that was written last -/

/-- Trimming adds nothing. -/
theorem Text.mem_of_mem_trim {c : Char} {text : List Char} (h : c ∈ trim text) : c ∈ text :=
  (List.dropWhile_suffix isBlank).subset ((trimEnd_isPrefix _).subset h)

/-- What is left of a text without the declarations comes from the text. -/
theorem Source.mem_of_mem_cut {c : Char} {content : List Char} {offset : Nat}
    {declarations : List Import} (h : c ∈ cut content offset declarations) : c ∈ content := by
  induction declarations generalizing offset with
  | nil => exact List.mem_of_mem_drop h
  | cons declaration rest ih =>
    rcases List.mem_append.1 h with h | h
    · exact List.mem_of_mem_drop (List.mem_of_mem_take h)
    · exact ih h

/-- A character of the texts, joined, is one of theirs or a line feed. -/
theorem Text.mem_joinFilled {c : Char} {texts : List String}
    (h : c ∈ (joinFilled texts).toList) : c = '\n' ∨ ∃ text ∈ texts, c ∈ text.toList := by
  induction texts with
  | nil => cases h
  | cons text rest ih =>
    have hrest : c ∈ (joinFilled rest).toList →
        c = '\n' ∨ ∃ other ∈ text :: rest, c ∈ other.toList := by
      intro h
      refine (ih h).imp_right ?_
      rintro ⟨other, ho, hc⟩
      exact ⟨other, List.mem_cons_of_mem _ ho, hc⟩
    rw [joinFilled_cons] at h
    unfold above at h
    split at h
    · exact hrest h
    · split at h
      · exact .inr ⟨text, List.mem_cons_self, h⟩
      · simp only [String.toList_append, List.mem_append] at h
        rcases h with (h | h) | h
        · exact .inr ⟨text, List.mem_cons_self, h⟩
        · exact .inl (List.mem_singleton.1 h)
        · exact hrest h

namespace Workspace

variable {space : Workspace} {extension : String} {entry path : Path} {bundle : Bundle}
  {content : ByteArray} {text : String}

/-- No text that is read has a carriage return in it. -/
theorem notMem_of_readText (h : space.readText path = .ok text) : '\r' ∉ text.toList := by
  unfold readText at h
  split at h
  · cases h
  · cases h
  · split at h
    · cases h
    · cases h
      rw [String.toList_ofList]
      exact Text.not_mem_unifyLineEnds _

/-- Nor has the text of a bundle. -/
theorem notMem_of_bundle (h : space.bundle extension entry = .ok bundle) :
    '\r' ∉ bundle.text.toList := by
  obtain ⟨modules, he, -⟩ := bundle_eq_ok h
  have htext : bundle.text = Text.joinFilled (modules.map (·.stripped)) := by
    have hjoin := he.joinFilled_eq
    rwa [List.map_cons, List.map_nil, Text.joinFilled_singleton] at hjoin
  rw [htext]
  intro hr
  obtain hfeed | ⟨code, hcode, hr⟩ := Text.mem_joinFilled hr
  · cases hfeed
  obtain ⟨module, hm, rfl⟩ := List.mem_map.1 hcode
  obtain ⟨content, hread, hmodule⟩ := load_eq_ok_iff.1 (he.loaded module hm)
  rw [hmodule, Module.ofText, Source.without, String.toList_ofList] at hr
  exact notMem_of_readText hread (Source.mem_of_mem_cut (Text.mem_of_mem_trim hr))

/-- A text without carriage returns is read as it was written. -/
theorem readPrevious_of_content? (h : space.content? path = some text.toUTF8)
    (hr : '\r' ∉ text.toList) : space.readPrevious path = .ok text := by
  unfold readPrevious exists? readText
  simp only [get?_of_content? h, Option.isSome_some, if_true, Text.Utf8.decode_toUTF8,
    Text.unifyLineEnds_eq_self hr, String.ofList_toList]

/-- What was there before can be read, unless it is a directory, or a file whose bytes are no text.
-/
theorem readPrevious_cases (space : Workspace) (path : Path) :
    (∃ previous, space.readPrevious path = .ok previous ∧
      ∀ content, space.content? path = some content → ∃ text, Text.Utf8.decode content = .ok text) ∨
    (space.get? path = some .directory ∧
      space.readPrevious path = .error (.file .isADirectory path)) ∨
    ∃ content fault, space.content? path = some content ∧
      Text.Utf8.decode content = .error fault ∧
      space.readPrevious path = .error (.malformed fault) := by
  unfold readPrevious exists? readText content?
  cases hget : space.get? path with
  | none => exact .inl ⟨"", rfl, nofun⟩
  | some entry =>
    cases entry with
    | directory => exact .inr (.inl ⟨rfl, rfl⟩)
    | file content =>
      cases hdecode : Text.Utf8.decode content with
      | error fault => exact .inr (.inr ⟨content, fault, rfl, hdecode, by simp [hdecode]⟩)
      | ok text =>
        refine .inl ⟨String.ofList (Text.unifyLineEnds text.toList), by simp [hdecode], ?_⟩
        intro other hother
        cases hother
        exact ⟨text, hdecode⟩

/-- A file whose path fits can be written once more, and with the same content this leaves all as it
was. -/
theorem writeThrough_of_content? (ht : space.files.IsTree) (hc : path.Canonical) (hpath : path.Fits)
    (h : space.content? path = some content) :
    ∃ after, space.writeThrough path content = (after, .ok ()) ∧ after.cwd = space.cwd ∧
      ∀ location, after.files.get? location = space.files.get? location := by
  have hfile := hasFile_of_content? hc h
  have hd : space.files.get? path.walk ≠ some .directory := by
    rw [hfile.found]
    exact nofun
  have hfree : space.files.Free path.walk.dropLast := by
    intro outer ho
    refine .inr (hfile.above outer (ho.trans (List.dropLast_prefix _)) ?_)
    rintro rfl
    exact Location.not_prefix_dropLast (FileSystem.ne_nil_of_get?_ne hd) ho
  have hthere : ∀ step ∈ path.trail, space.files.get? step.walk = none → step.Fits := by
    intro step hs hnone
    by_cases he : step.walk = path.walk
    · cases hnone.symm.trans (he ▸ hfile.found)
    · cases hnone.symm.trans (hfile.above _ (hc.of_mem_trail hs).2 he)
  have hok : (space.writeThrough path content).2 = .ok () :=
    writeThrough_of_free ht hc hpath hfree hd hthere
  have hw : space.writeThrough path content = ((space.writeThrough path content).1, .ok ()) :=
    Prod.ext rfl hok
  obtain ⟨-, hcwd, hgained⟩ := gained_of_writeThrough ht hc hw
  refine ⟨_, hw, hcwd, fun location => ?_⟩
  by_cases hon : location <+: path.walk
  · by_cases hplace : location = path.walk
    · rw [hplace, hgained.found, hfile.found]
    · rw [hgained.above location hon hplace, hfile.above location hon hplace]
  · exact hgained.kept location hon

/-- The write of a text keeps the working directory. -/
theorem cwd_writeText (space : Workspace) (path : Path) (text : String) :
    (space.writeText path text).1.cwd = space.cwd := by
  rw [writeText, cwd_writeThrough]

/-- A directory does not become a file. -/
theorem exists_error_of_writeThrough (rooted : space.cwd.isAbsolute = true)
    (hd : space.get? path = some .directory) :
    ∃ error, (space.writeThrough path content).2 = .error error := by
  rcases writeThrough_cases space path content with ⟨-, he⟩ | ⟨made, hp, hw, -⟩
  · exact he
  obtain ⟨-, -, hfree⟩ := writeFile_eq_ok (hp.cwd_eq ▸ rooted) hw
  have hmade : made.get? path = some .directory := hp.get? hd
  unfold get? at hmade
  split at hmade
  · next hl =>
    rw [walk_of_locate (hp.cwd_eq ▸ rooted) hl] at hfree
    exact absurd hmade hfree
  · cases hmade

end Workspace

namespace Host

variable {host after : Host} {config : Config} {bundle : Bundle}

/-! ## Builds with a report and without -/

/-- What a build that succeeds writes before it reports changes. -/
def progress (host : Host) (config : Config) (bundle : Bundle) : List String :=
  (if host.console.verbose then
    [Console.debugLine ("Resolved " ++ toString bundle.modules.length
      ++ " module(s) from " ++ host.display bundle.entry)]
  else []) ++
  [Console.line ("Bundling completed in " ++ elapsed host.tick.2 host.tick.1.tick.2),
    Console.line ("Bundle written: " ++ host.display (host.workspace.absolute config.output))]

/-- That there are no differences is no part of the progress. -/
theorem notMem_progress : Console.line "No differences." ∉ host.progress config bundle := by
  intro h
  rcases List.mem_append.1 h with h | h
  · split at h
    · exact Console.debugLine_ne_line _ _ (List.mem_singleton.1 h).symm
    · cases h
  · simp only [List.mem_cons, Console.line_injective.eq_iff, List.not_mem_nil, or_false] at h
    rcases h with h | h <;>
    · have hhead := congrArg (fun message => message.toList.head?) h
      simp at hhead

/-- A write that succeeds tells how long the build took and where its text is. -/
theorem tells_write {start : Reading} {output : Path} {text : String}
    (h : host.write start output text = (after, .ok ())) :
    host.Tells after [Console.line ("Bundling completed in " ++ elapsed start host.tick.2),
      Console.line ("Bundle written: " ++ host.display output)] := by
  have hcwd := Workspace.cwd_writeText host.workspace output text
  unfold write at h
  generalize host.workspace.writeText output text = outcome at h hcwd
  obtain ⟨space, _ | _⟩ := outcome
  · cases h
  · let written : Host := { host with workspace := space }
    have hstop : written.tick.2 = host.tick.2 := tick_congr rfl
    have hdisplay : written.tick.1.display output = host.display output := by
      unfold display
      rw [workspace_tick]
      exact congrArg (Path.display · output) hcwd
    rw [← hstop, ← hdisplay]
    cases h
    exact ((tells_tick written).trans (tells_info _ _)).trans (tells_info _ _)

/-- A build without a report tells of its progress and nothing else. -/
theorem tells_build (h : host.build { config with diff := false } = (after, .ok bundle)) :
    host.Tells after (host.progress config bundle) := by
  unfold build at h
  simp only [Bool.false_eq_true, if_false] at h
  split at h
  · cases h
  · next found hb =>
    split at h
    · cases h
    · next hw =>
      cases h
      have hall := ((tells_tick host).trans (tells_debug host.tick.1 _)).trans (tells_write hw)
      have hstop : ∀ message, (host.tick.1.debug message).tick.2 = host.tick.1.tick.2 :=
        fun _ => tick_congr rfl
      simp only [display, hstop, console_tick, workspace_debug, workspace_tick,
        List.nil_append] at hall
      exact hall

/-- With the flag the output is read before, and the changes are reported in the end. All else goes
as without it. -/
theorem build_reporting (host : Host) (reports : config.diff = true) :
    host.build config =
      match host.workspace.readPrevious (host.workspace.absolute config.output) with
      | .error error => (host.tick.1, .error error)
      | .ok previous =>
        match host.build { config with diff := false } with
        | (after, .error error) => (after, .error error)
        | (after, .ok bundle) => (after.reportDiff previous bundle.text, .ok bundle) := by
  unfold build
  simp only [reports, if_true, Bool.false_eq_true, if_false, workspace_tick]
  cases host.workspace.readPrevious (host.workspace.absolute config.output) with
  | error error => rfl
  | ok previous =>
    dsimp only
    cases host.workspace.bundle config.extension config.entry with
    | error error => rfl
    | ok bundle =>
      dsimp only
      split <;> simp_all

/-- A build keeps the working directory. -/
theorem cwd_build (host : Host) (config : Config) :
    (host.build config).1.workspace.cwd = host.workspace.cwd := by
  rcases build_cases host config with ⟨hspace, -⟩ | ⟨bundle, -, hspace, -⟩
  · rw [hspace]
  · rw [hspace, Workspace.cwd_writeText]

/-- A build that succeeds leaves the text of its bundle at the output. -/
theorem content?_of_build (rooted : host.workspace.cwd.isAbsolute = true)
    (h : host.build config = (after, .ok bundle)) :
    after.workspace.content? (host.workspace.absolute config.output) =
      some bundle.text.toUTF8 := by
  obtain ⟨-, hw⟩ := build_eq_ok h
  have hafter : (host.workspace.writeThrough (host.workspace.absolute config.output)
      bundle.text.toUTF8).1 = after.workspace := congrArg Prod.fst hw
  rw [← hafter]
  exact Workspace.content?_writeThrough_self rooted (Path.canonical_absolute rooted)
    (congrArg Prod.snd hw)

/-- A build with a report tells of its progress, and then of the changes of the output. -/
theorem tells_build_reporting {previous : String} {last : Host}
    (hp : host.workspace.readPrevious (host.workspace.absolute config.output) = .ok previous)
    (reports : config.diff = true) (h : host.build config = (last, .ok bundle)) :
    host.Tells last (host.progress config bundle ++
      (report (diff previous bundle.text)).map Console.line) := by
  rw [build_reporting host reports, hp] at h
  dsimp only at h
  split at h
  · cases h
  · next hoff =>
    cases h
    exact (tells_build hoff).trans (tells_reportDiff _ _ _)

/-- Where the output is a directory, no build succeeds. -/
theorem exists_error_of_build (config : Config) (rooted : host.workspace.cwd.isAbsolute = true)
    (hd : host.workspace.get? (host.workspace.absolute config.output) = some .directory) :
    ∃ error, (host.build config).2 = .error error := by
  rcases build_cases host config with ⟨-, he⟩ | ⟨bundle, -, -, hend⟩
  · exact he
  · obtain ⟨error, hw⟩ : ∃ error, (host.workspace.writeText
        (host.workspace.absolute config.output) bundle.text).2 = .error error :=
      Workspace.exists_error_of_writeThrough rooted hd
    exact ⟨error, by rw [hend, hw]; rfl⟩

/-- A build without a report succeeds if there is a bundle and its text can be written. -/
theorem build_of_written
    (hb : host.workspace.bundle config.extension config.entry = .ok bundle)
    (hw : (host.workspace.writeText (host.workspace.absolute config.output) bundle.text).2 =
      .ok ()) : ∃ after, host.build { config with diff := false } = (after, .ok bundle) := by
  unfold build
  simp only [Bool.false_eq_true, if_false, workspace_tick, hb]
  split
  · next error hwrite =>
    have hend := congrArg Prod.snd hwrite
    rw [(write_eq _ _ _ _).2, workspace_debug, workspace_tick, hw] at hend
    cases hend
  · exact ⟨_, rfl⟩

/-- A build with a report succeeds if it can be made without, and the output can be read. -/
theorem build_of_readable {previous : String}
    (hp : host.workspace.readPrevious (host.workspace.absolute config.output) = .ok previous)
    (reports : config.diff = true)
    (h : host.build { config with diff := false } = (after, .ok bundle)) :
    host.build config = (after.reportDiff previous bundle.text, .ok bundle) := by
  rw [build_reporting host reports, hp, h]

/-- A build whose output is not the place of a module leaves files that give its bundle again, and
to write the text again leaves them as they are. -/
theorem exists_write_of_build (ht : host.workspace.files.IsTree)
    (rooted : host.workspace.cwd.isAbsolute = true)
    (h : host.build config = (after, .ok bundle))
    (apart : ∀ path ∈ bundle.modules,
      path.walk ≠ (host.workspace.absolute config.output).walk) :
    after.workspace.bundle config.extension config.entry = .ok bundle ∧
    ∃ space, after.workspace.writeText (host.workspace.absolute config.output) bundle.text =
        (space, .ok ()) ∧
      space.cwd = after.workspace.cwd ∧
      ∀ location, space.files.get? location = after.workspace.files.get? location := by
  have hc : (host.workspace.absolute config.output).Canonical := Path.canonical_absolute rooted
  have hself : host.workspace.absolute (host.workspace.absolute config.output) =
      host.workspace.absolute config.output := hc.absolute_eq
  obtain ⟨hb, hw⟩ := build_eq_ok h
  have hafter : (host.workspace.writeThrough (host.workspace.absolute config.output)
      bundle.text.toUTF8).1 = after.workspace := congrArg Prod.fst hw
  have hcwd := cwd_build host config
  have htree := isTree_build ht config
  rw [h] at hcwd htree
  constructor
  · refine Workspace.bundle_of_contents rooted hb hcwd fun path hp content hcontent => ?_
    rw [← hafter]
    exact Workspace.content?_writeThrough_of_walk_ne rooted
      (Workspace.canonical_of_mem_modules rooted hb hp) (hself.symm ▸ apart path hp) hcontent
  · exact Workspace.writeThrough_of_content? htree hc
      (Workspace.gained_of_writeThrough ht hc hw).1 (content?_of_build rooted h)

/-! ## Consecutive builds -/

/-- The report of a build is about the text of the build before it, if nothing else was written to
the output in between: it tells the changes from that text to the new one, and that there are none
exactly if the texts are equal. If nothing was changed in between, and the output is not the place
of a module, the bundle is the same again, no differences are reported, and all files stay as they
are. -/
theorem diff_of_consecutive_builds {first : Bundle}
    (rooted : host.workspace.cwd.isAbsolute = true)
    (h : host.build config = (after, .ok first)) (later : Host) (next : Config)
    (same : later.workspace.absolute next.output = host.workspace.absolute config.output)
    (kept : later.workspace.content? (host.workspace.absolute config.output) =
      after.workspace.content? (host.workspace.absolute config.output))
    (reports : next.diff = true) :
    (∀ last second, later.build next = (last, .ok second) → ∃ texts, later.Tells last texts ∧
      texts = later.progress next second ++
        (report (diff first.text second.text)).map Console.line ∧
      (Console.line "No differences." ∈ texts ↔ first.text = second.text)) ∧
    (later.workspace = after.workspace → host.workspace.files.IsTree →
      next.entry = config.entry → next.extension = config.extension →
      (∀ path ∈ first.modules, path.walk ≠ (host.workspace.absolute config.output).walk) →
      ∃ last, later.build next = (last, .ok first) ∧
        later.Tells last (later.progress next first ++ [Console.line "No differences."]) ∧
        last.workspace.cwd = later.workspace.cwd ∧
        ∀ location, last.workspace.files.get? location = later.workspace.files.get? location) := by
  obtain ⟨hb, -⟩ := build_eq_ok h
  have hprevious : later.workspace.readPrevious (later.workspace.absolute next.output) =
      .ok first.text := by
    rw [same]
    exact Workspace.readPrevious_of_content? (kept.trans (content?_of_build rooted h))
      (Workspace.notMem_of_bundle hb)
  have htells : ∀ {last second}, later.build next = (last, .ok second) →
      later.Tells last (later.progress next second ++
        (report (diff first.text second.text)).map Console.line) :=
    tells_build_reporting hprevious reports
  refine ⟨fun last second hsecond => ⟨_, htells hsecond, rfl, ?_⟩, ?_⟩
  · rw [List.mem_append, or_iff_right notMem_progress,
      List.mem_map_of_injective Console.line_injective, mem_report_iff, diff_eq_nil_iff]
  · intro hspace ht hentry hextension hplace
    obtain ⟨hagain, space, hwrite, hcwd, hfiles⟩ := exists_write_of_build ht rooted h hplace
    rw [← hspace] at hagain hwrite hcwd hfiles
    rw [← hentry, ← hextension] at hagain
    rw [← same] at hwrite
    obtain ⟨off, hoff⟩ := build_of_written hagain (congrArg Prod.snd hwrite)
    have hon := build_of_readable hprevious reports hoff
    obtain ⟨-, hlast⟩ := build_eq_ok hon
    cases hwrite.symm.trans hlast
    refine ⟨_, hon, ?_, hcwd, hfiles⟩
    have hall := htells hon
    rwa [diff_self] at hall

/-- A host whose entry has a mark of byte order, and whose lines end in three ways. -/
def ofMixed : Host where
  workspace := .ofSources [("a.js", "\ufeffimport b from './b';\r\nb"), ("b.js", "c\r\rd")]
  now := ⟨2024, 3, 5, 7, 8, 9⟩

/-- The mixed host after a build, with another last line in the module `b`. -/
def ofMixedEdited : Host where
  workspace := .ofSources [("all.js", "c\n\nd\n\ufeff\nb"),
    ("a.js", "\ufeffimport b from './b';\r\nb"), ("b.js", "c\r\rä")]
  now := ⟨2024, 3, 5, 7, 9, 0⟩

/-- After the edit the second build of the mixed host reports the line that is different. Without
it the second build reports that there is none. -/
theorem diff_of_consecutive_builds_mixed :
    let config : Config := { entry := "a.js", output := "all.js" }
    let next : Config := { entry := "a.js", output := "all.js", diff := true }
    let first : Bundle := ⟨"/w/a.js", "c\n\nd\n\ufeff\nb", ["/w/b.js", "/w/a.js"]⟩
    let second : Bundle := ⟨"/w/a.js", "c\n\nä\n\ufeff\nb", ["/w/b.js", "/w/a.js"]⟩
    ∃ built, ofMixed.build config = (built, .ok first) ∧
      (∃ last, ofMixedEdited.build next = (last, .ok second) ∧
        ofMixedEdited.Tells last (ofMixedEdited.progress next second ++
          ["1 line(s) changed:", "\x1b[91m   3 - d\x1b[0m", "\x1b[92m   3 + ä\x1b[0m"].map
            Console.line)) ∧
      ∃ last, built.build next = (last, .ok first) ∧
        built.Tells last (built.progress next first ++ [Console.line "No differences."]) ∧
        ∀ location, last.workspace.files.get? location = built.workspace.files.get? location := by
  intro config next first second
  obtain ⟨built, h⟩ : ∃ built, ofMixed.build config = (built, .ok first) :=
    ⟨_, Prod.ext rfl (by decide +kernel)⟩
  refine ⟨built, h, ?_, ?_⟩
  · obtain ⟨last, hlast⟩ : ∃ last, ofMixedEdited.build next = (last, .ok second) :=
      ⟨_, Prod.ext rfl (by decide +kernel)⟩
    have hkept : ofMixedEdited.workspace.content? (ofMixed.workspace.absolute config.output) =
        some first.text.toUTF8 := by decide +kernel
    obtain ⟨texts, htells, rfl, -⟩ := (diff_of_consecutive_builds rfl h ofMixedEdited next
      (by decide +kernel) (hkept.trans (content?_of_build rfl h).symm) rfl).1 last second hlast
    have hlines : Text.splitLines first.text = ["c", "", "d", "\ufeff", "b"] ∧
        Text.splitLines second.text = ["c", "", "ä", "\ufeff", "b"] := by decide +kernel
    have hdiff : diff first.text second.text = [⟨2, some "d", some "ä"⟩] := by
      rw [diff, hlines.1, hlines.2]
      simp [changesFrom]
    have hreport : report [⟨2, some "d", some "ä"⟩] =
        ["1 line(s) changed:", "\x1b[91m   3 - d\x1b[0m", "\x1b[92m   3 + ä\x1b[0m"] := by
      decide +kernel
    rw [hdiff, hreport] at htells
    exact ⟨last, hlast, htells⟩
  · have hcwd := cwd_build ofMixed config
    rw [h] at hcwd
    obtain ⟨last, hlast, htells, -, hfiles⟩ :=
      (diff_of_consecutive_builds rfl h built next (Workspace.absolute_congr hcwd) rfl rfl).2 rfl
        (by decide +kernel) rfl rfl (by decide +kernel)
    exact ⟨last, hlast, htells, hfiles⟩

/-! ## With the flag and without -/

/-- Whether a report is asked for only decides whether there is one: with the flag and without, both
builds fail, or both make the same bundle and leave the same files, and the one with the flag has
told of changes in addition. -/
def DiffOnlyReports (host : Host) (config : Config) : Prop :=
  let on := host.build { config with diff := true }
  let off := host.build { config with diff := false }
  ((∃ error, on.2 = .error error) ∧ ∃ error, off.2 = .error error) ∨
    ∃ bundle changes, on.2 = .ok bundle ∧ off.2 = .ok bundle ∧
      on.1.workspace = off.1.workspace ∧ off.1.Tells on.1 ((report changes).map Console.line)

/-- The flag only adds a report, unless the output is a file whose bytes are no text: then it makes
a build fail that succeeds without it. -/
theorem diffOnlyReports_iff (rooted : host.workspace.cwd.isAbsolute = true) :
    host.DiffOnlyReports config ↔
      (∃ error, (host.build { config with diff := false }).2 = .error error) ∨
      ∀ content, host.workspace.content? (host.workspace.absolute config.output) = some content →
        ∃ text, Text.Utf8.decode content = .ok text := by
  unfold DiffOnlyReports
  have hreport := @build_reporting { config with diff := true } host rfl
  obtain ⟨off, ending, hoff⟩ : ∃ off ending,
    host.build { config with diff := false } = (off, ending) := ⟨_, _, rfl⟩
  rw [hoff] at hreport ⊢
  cases ending with
  | error fault =>
    refine iff_of_true (.inl ⟨?_, fault, rfl⟩) (.inl ⟨fault, rfl⟩)
    rw [hreport]
    split <;> exact ⟨_, rfl⟩
  | ok bundle =>
    rcases host.workspace.readPrevious_cases (host.workspace.absolute config.output) with
      ⟨previous, hp, hreads⟩ | ⟨hd, -⟩ | ⟨content, fault, hc, hdecode, hp⟩
    · refine iff_of_true (.inr ⟨bundle, diff previous bundle.text, ?_⟩) (.inr hreads)
      rw [hreport, hp]
      exact ⟨rfl, rfl, workspace_reportDiff _ _ _, tells_reportDiff _ _ _⟩
    · obtain ⟨error, he⟩ := exists_error_of_build { config with diff := false } rooted hd
      rw [hoff] at he
      cases he
    · rw [hreport, hp]
      refine iff_of_false ?_ ?_
      · rintro (⟨-, _, hfail⟩ | ⟨_, _, hsuccess, -⟩)
        · cases hfail
        · cases hsuccess
      · rintro (⟨_, hfail⟩ | hreads)
        · cases hfail
        · obtain ⟨text, htext⟩ := hreads content hc
          cases hdecode.symm.trans htext

/-- An output that is a module of the bundle makes no difference. -/
theorem diffOnlyReports_pair : ofPair.DiffOnlyReports { entry := "a.js", output := "b.js" } := by
  refine (diffOnlyReports_iff rfl).2 (.inr fun content hc => ?_)
  have hmodule : ofPair.workspace.content? "/w/b.js" = some "b".toUTF8 := by decide +kernel
  cases hmodule.symm.trans hc
  exact ⟨"b", Text.Utf8.decode_toUTF8 "b"⟩

/-- A host with a module, and an output that ends inside a character, as after a write of the same
text that was interrupted. -/
def ofInterrupted : Host where
  workspace := ((Workspace.ofSources [("a.js", "var é;")]).edit
    (.write "out.js" ⟨#[0x76, 0x61, 0x72, 0x20, 0xc3]⟩)).1
  now := ⟨2024, 3, 5, 7, 8, 9⟩

/-- A build puts the whole text in its place, but not if a report is asked for. -/
theorem report_refused_interrupted :
    (ofInterrupted.build { entry := "a.js", output := "out.js" }).2 =
      .ok ⟨"/w/a.js", "var é;", ["/w/a.js"]⟩ ∧
    (ofInterrupted.build { entry := "a.js", output := "out.js", diff := true }).2 =
      .error (.malformed ⟨4, [0xc3], .unexpectedEnd⟩) ∧
    ¬ ofInterrupted.DiffOnlyReports { entry := "a.js", output := "out.js" } := by
  have hoff : (ofInterrupted.build { entry := "a.js", output := "out.js" }).2 =
      .ok ⟨"/w/a.js", "var é;", ["/w/a.js"]⟩ := by decide +kernel
  have hon : (ofInterrupted.build { entry := "a.js", output := "out.js", diff := true }).2 =
      .error (.malformed ⟨4, [0xc3], .unexpectedEnd⟩) := by decide +kernel
  refine ⟨hoff, hon, ?_⟩
  rintro (⟨-, error, he⟩ | ⟨bundle, changes, hb, -⟩)
  · cases hoff.symm.trans he
  · cases hon.symm.trans hb

end Host

end Bundler
