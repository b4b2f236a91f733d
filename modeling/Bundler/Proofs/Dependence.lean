import Bundler.Proofs.Bundle
import Bundler.Proofs.Contents

/-!
# What a bundle depends on

A bundle depends on the texts of its modules and on nothing else in the workspace.

* `Emission.agree`: a walk goes the same way in every workspace that has the same texts at the paths
  that it inlines (`Workspace.AgreesOn`), and `Emission.det`: it can only go one way.
* `Workspace.bundle_eq_ok_iff`: so the bundle is determined by the walk alone, whatever bound on the
  depth the workspace gives.
* `Workspace.reaches_of_bundle`: a workspace that only lacks something keeps all that an entry
  reaches, as long as the entry has a bundle in it.
* `Workspace.bundle_depends_on_modules`: other files do not matter, and each of the modules does.
-/

namespace Bundler

/-- The other workspace has the same working directory, and the same text at each of the paths. -/
structure Workspace.AgreesOn (space : Workspace) (paths : List Path) (other : Workspace) : Prop where
  cwd_eq : other.cwd = space.cwd
  readText_eq : ∀ path ∈ paths, other.readText path = space.readText path

/-- From equal texts equal modules are loaded. -/
theorem Workspace.AgreesOn.load {space other : Workspace} {extension : String} {paths : List Path}
    {path : Path} {module : Module} (h : space.AgreesOn paths other) (hp : path ∈ paths)
    (hl : space.load extension none path = .ok module) :
    other.load extension none path = .ok module := by
  obtain ⟨text, ht, rfl⟩ := load_eq_ok_iff.1 hl
  rw [← h.cwd_eq]
  exact load_eq_ok_iff.2 ⟨text, (h.readText_eq path hp).trans ht, rfl⟩

namespace Emission

variable {space other : Workspace} {extension : String} {inProgress visited paths : List Path}
  {modules others : List Module} {inlined texts : Inlined}

/-- A walk inlines the same modules wherever these have the same texts. -/
theorem agree (h : Emission space extension inProgress visited paths modules inlined)
    (ha : space.AgreesOn (modules.map (·.path)) other) :
    Emission other extension inProgress visited paths modules inlined := by
  have hload : ∀ module ∈ modules, other.load extension none module.path = .ok module :=
    fun module hm => ha.load (List.mem_map_of_mem hm) (h.loaded module hm)
  clear ha
  induction h with
  | nil => exact .nil
  | skip hp hv _ ih => exact .skip hp hv (ih hload)
  | @enter _ _ _ path module below later _ _ hp hv hl _ _ ihb ihl =>
    have hmodule : other.load extension none path = .ok module := by
      have := hload module (by simp)
      rwa [Workspace.path_of_load hl] at this
    exact .enter hp hv hmodule (ihb fun module hm => hload module (by simp [hm]))
      (ihl fun module hm => hload module (by simp [hm]))

/-- A walk that succeeds can go only one way. -/
theorem det (h : Emission space extension inProgress visited paths modules inlined)
    (h' : Emission space extension inProgress visited paths others texts) :
    modules = others ∧ inlined = texts := by
  induction h generalizing others texts with
  | nil =>
    cases h'
    exact ⟨rfl, rfl⟩
  | skip _ hv _ ih =>
    cases h' with
    | skip _ _ hrest => exact ih hrest
    | enter _ hv' => exact absurd hv hv'
  | enter _ hv hl _ _ ihb ihl =>
    cases h' with
    | skip _ hv' => exact absurd hv' hv
    | enter _ _ hl' hbelow hrest =>
      cases hl.symm.trans hl'
      obtain ⟨rfl, rfl⟩ := ihb hbelow
      obtain ⟨rfl, rfl⟩ := ihl hrest
      exact ⟨rfl, rfl⟩

/-- A walk does not fail where it succeeds. -/
theorem not_failure {importer : Option Path} {error : Error}
    (h : Emission space extension inProgress visited paths modules inlined) :
    ¬ Failure space extension importer inProgress visited paths others error := by
  induction h generalizing others importer with
  | nil => exact nofun
  | skip hp hv _ ih =>
    intro hf
    cases hf with
    | cycle hp' => exact hp hp'
    | unread _ hv' | inside _ hv' | later _ hv' => exact hv' hv
    | skip _ _ hrest => exact ih hrest
  | enter hp hv hl hb _ ihb ihl =>
    intro hf
    cases hf with
    | cycle hp' => exact hp hp'
    | unread _ _ he => cases (Workspace.load_eq_ok_iff_none.2 hl).symm.trans he
    | skip _ hv' => exact hv hv'
    | inside _ _ hl' hbelow =>
      cases hl.symm.trans hl'
      exact ihb hbelow
    | later _ _ hl' hbelow hrest =>
      cases hl.symm.trans hl'
      obtain ⟨rfl, -⟩ := hb.det hbelow
      exact ihl hrest

end Emission

namespace Workspace

variable {space other : Workspace} {extension : String} {entry path : Path} {bundle : Bundle}

/-- A file that is removed is no source any more. -/
theorem not_isSource_delete (hs : space.IsSource path) : ¬ (space.delete path).IsSource path := by
  rintro ⟨bytes, hb, -⟩
  obtain ⟨old, ho, -⟩ := hs
  obtain ⟨location, hl, hf⟩ := content?_eq_some.1 ho
  obtain ⟨again, hl', hf'⟩ := content?_eq_some.1 hb
  have hroot : location ≠ [] := by
    rintro rfl
    cases hf
  -- The path still leads to the same place, if anywhere, and nothing stands there.
  cases ((space.isPartOf_delete path).locate hl').symm.trans hl
  cases hf'.symm.trans (get?_delete hl hroot)

/-- A bundle is what a walk over the entry inlines: the bound on its depth does not show. -/
theorem bundle_eq_ok_iff (rooted : space.cwd.isAbsolute = true) :
    space.bundle extension entry = .ok bundle ↔ bundle.entry = space.absolute entry ∧
      ∃ modules, Emission space extension [] [] [space.absolute entry] modules
        [(space.absolute entry, bundle.text)] ∧ bundle.modules = modules.map (·.path) := by
  rcases bundle_outcome space extension entry with ⟨modules, text, he, hb⟩ |
    ⟨_, _, hf, hb⟩ | ⟨entered, _, _, hd, hlen, hb⟩
  · rw [hb]
    constructor
    · intro h
      cases h
      exact ⟨rfl, modules, he, rfl⟩
    · rintro ⟨hentry, others, he', hm⟩
      obtain ⟨rfl, htexts⟩ := he.det he'
      obtain ⟨entry', text', modules'⟩ := bundle
      simp only [List.cons.injEq, Prod.mk.injEq, true_and, and_true] at hentry hm htexts
      rw [hentry, hm, htexts]
  · rw [hb]
    refine ⟨nofun, ?_⟩
    rintro ⟨-, _, he, -⟩
    exact absurd hf he.not_failure
  · have := hd.length_le rooted
    omega

/-- Where the modules of a bundle have the same texts, the same bundle is made. -/
theorem bundle_of_agreesOn (rooted : space.cwd.isAbsolute = true)
    (h : space.bundle extension entry = .ok bundle) (ha : space.AgreesOn bundle.modules other) :
    other.bundle extension entry = .ok bundle := by
  obtain ⟨hentry, modules, he, hm⟩ := (bundle_eq_ok_iff rooted).1 h
  have habsolute : other.absolute entry = space.absolute entry := absolute_congr ha.cwd_eq
  refine (bundle_eq_ok_iff (ha.cwd_eq ▸ rooted)).2 ⟨hentry.trans habsolute.symm, modules, ?_, hm⟩
  rw [habsolute]
  exact he.agree (hm ▸ ha)

/-- The modules of a bundle are the paths that the entry reaches. -/
theorem mem_modules_iff (h : space.bundle extension entry = .ok bundle) :
    path ∈ bundle.modules ↔ space.Reaches extension (space.absolute entry) path := by
  obtain ⟨modules, he, hm⟩ := bundle_eq_ok h
  rw [hm]
  constructor
  · intro hp
    obtain ⟨module, hmem, rfl⟩ := List.mem_map.1 hp
    obtain ⟨start, hs, hr⟩ := he.reached module hmem
    exact List.mem_singleton.1 hs ▸ hr
  · exact he.mem_of_reaches nofun List.mem_cons_self

/-- The modules of a bundle are canonical paths. -/
theorem canonical_of_mem_modules (rooted : space.cwd.isAbsolute = true)
    (h : space.bundle extension entry = .ok bundle) (hp : path ∈ bundle.modules) :
    path.Canonical := by
  cases Relation.ReflTransGen.cases_tail ((mem_modules_iff h).1 hp) with
  | inl heq =>
    rw [heq]
    exact Path.canonical_absolute rooted
  | inr himport =>
    obtain ⟨_, -, hi⟩ := himport
    exact hi.canonical rooted

/-- The modules of a bundle are files with a content. -/
theorem exists_content_of_mem_modules (h : space.bundle extension entry = .ok bundle)
    (hp : path ∈ bundle.modules) : ∃ content, space.content? path = some content := by
  obtain ⟨modules, he, hm⟩ := bundle_eq_ok h
  obtain ⟨module, hmem, rfl⟩ := List.mem_map.1 (hm ▸ hp)
  obtain ⟨content, hc, -⟩ := isSource_iff_load.2 ⟨module, he.loaded module hmem⟩
  exact ⟨content, hc⟩

/-- Where the modules of a bundle have kept their contents, the same bundle is made. -/
theorem bundle_of_contents (rooted : space.cwd.isAbsolute = true)
    (h : space.bundle extension entry = .ok bundle) (hcwd : other.cwd = space.cwd)
    (hkept : ∀ path ∈ bundle.modules, ∀ content, space.content? path = some content →
      other.content? path = some content) : other.bundle extension entry = .ok bundle := by
  refine bundle_of_agreesOn rooted h ⟨hcwd, fun path hp => ?_⟩
  obtain ⟨content, hc⟩ := exists_content_of_mem_modules h hp
  exact readText_of_content? hc (hkept path hp content hc)

/-- All that an entry reaches, it reaches also in a workspace that only lacks something, if it has a
bundle there: a file on the way that is lacking would be missed. -/
theorem reaches_of_bundle (hpart : other.IsPartOf space)
    (h : other.bundle extension entry = .ok bundle)
    (hr : space.Reaches extension (space.absolute entry) path) :
    other.Reaches extension (other.absolute entry) path ∧ other.IsSource path := by
  obtain ⟨modules, he, -⟩ := bundle_eq_ok h
  have hsource : ∀ {path}, other.Reaches extension (other.absolute entry) path →
      other.IsSource path := by
    intro path hr
    obtain ⟨module, hm, rfl⟩ := List.mem_map.1 (he.mem_of_reaches nofun List.mem_cons_self hr)
    exact isSource_iff_load.2 ⟨module, he.loaded module hm⟩
  have habsolute : space.absolute entry = other.absolute entry := absolute_congr hpart.cwd_eq
  induction hr with
  | refl => exact ⟨habsolute ▸ .refl, hsource (habsolute ▸ .refl)⟩
  | @tail path target _ hi ih =>
    -- The importer has kept its text, hence its imports.
    obtain ⟨text, ht⟩ := isSource_iff_readText.1 ih.2
    obtain ⟨module, hm, hmem⟩ := hi
    obtain ⟨text', ht', rfl⟩ := load_eq_ok_iff.1 hm
    cases (hpart.readText ht).symm.trans ht'
    have himports : other.Imports extension path target :=
      ⟨_, load_eq_ok_iff.2 ⟨text, ht, by rw [hpart.cwd_eq]⟩, hmem⟩
    exact ⟨ih.1.tail himports, hsource (ih.1.tail himports)⟩

/-- The modules of a bundle are what it depends on: where they have the same texts, the same bundle
is made, whatever else is different, and without any one of them there is no bundle. -/
theorem bundle_depends_on_modules (rooted : space.cwd.isAbsolute = true)
    (h : space.bundle extension entry = .ok bundle) :
    (∀ other : Workspace, space.AgreesOn bundle.modules other →
      other.bundle extension entry = .ok bundle) ∧
    ∀ path ∈ bundle.modules, ∃ error, (space.delete path).bundle extension entry = .error error := by
  refine ⟨fun other ha => bundle_of_agreesOn rooted h ha, fun path hp => ?_⟩
  obtain ⟨modules, he, hm⟩ := bundle_eq_ok h
  obtain ⟨module, hmem, rfl⟩ := List.mem_map.1 (hm ▸ hp)
  obtain ⟨start, hs, hr⟩ := he.reached module hmem
  rw [List.mem_singleton.1 hs] at hr
  cases hd : (space.delete module.path).bundle extension entry with
  | error error => exact ⟨error, rfl⟩
  | ok other =>
    have hpart := space.isPartOf_delete module.path
    have hsource := (reaches_of_bundle hpart hd hr).2
    exact absurd hsource (not_isSource_delete (isSource_iff_load.2 ⟨module, he.loaded module hmem⟩))

/-- The files of the diamond in another order, and a file more. -/
def crowd : Workspace :=
  ofSources [("d.js", "var d = 1;"), ("e.js", "var e = 2;"), ("c.js", "import * as d from './d.js';\n"),
    ("b.js", "import { d } from './d';\nvar b = d;"),
    ("a.js", "import { b } from './b';\nimport { d } from \"./c\";\nvar a = b + d;\n")]

/-- The crowd has the same bundle as the diamond, which loses it with any of its modules. -/
theorem bundle_depends_on_modules_diamond :
    crowd.bundle ".js" "a.js" = diamond.bundle ".js" "a.js" ∧
      ∀ path ∈ ["/w/d.js", "/w/b.js", "/w/c.js", "/w/a.js"],
        ∃ error, (diamond.delete path).bundle ".js" "a.js" = .error error := by
  have h := bundle_depends_on_modules rfl bundle_diamond
  have hcrowd : diamond.AgreesOn ["/w/d.js", "/w/b.js", "/w/c.js", "/w/a.js"] crowd :=
    ⟨rfl, by decide +kernel⟩
  exact ⟨(h.1 crowd hcrowd).trans bundle_diamond.symm, h.2⟩

end Workspace

end Bundler
