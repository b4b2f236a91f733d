import Bundler.Proofs.Bundle
import Bundler.Proofs.Concatenation

/-!
# The code of a bundle

No module changes the meaning of another one's text: the tokens of a bundle are the tokens of its
modules, one module after the other (`Workspace.lexemes_of_bundle`). The exception is a module that
opens a template or a block comment without closing it, with code of another module below.
-/

namespace Bundler

namespace Workspace

variable {space : Workspace} {extension : String} {entry : Path} {bundle : Bundle}

/-- A module has one code. -/
theorem rightUnique_hasCode (space : Workspace) : Relator.RightUnique space.HasCode := by
  rintro path code other ⟨content, hc, rfl⟩ ⟨content', hc', rfl⟩
  rw [hc] at hc'
  rw [Except.ok.inj hc']

/-- The modules of a bundle have codes, and its tokens are those of the codes, one after the other,
unless a code with another one below it opens a template or a block comment that it does not close.
Quotation marks and line comments that a code ends with do not reach the next one, nor do names and
numbers. -/
theorem lexemes_of_bundle (h : space.bundle extension entry = .ok bundle) :
    (∃ codes, List.Forall₂ space.HasCode bundle.modules codes) ∧
    ∀ codes, List.Forall₂ space.HasCode bundle.modules codes →
      (∀ code ∈ (codes.filter (· ≠ "")).dropLast, Source.SelfContained code) →
      (Source.tokens bundle.text).map Source.Token.lexeme =
        codes.flatMap fun code => (Source.tokens code).map Source.Token.lexeme := by
  obtain ⟨modules, he, hm⟩ := bundle_eq_ok h
  have hcodes : List.Forall₂ space.HasCode bundle.modules (modules.map (·.stripped)) := by
    rw [hm, List.forall₂_map_left_iff, List.forall₂_map_right_iff, List.forall₂_same]
    exact fun module hmem => hasCode_of_load (he.loaded module hmem)
  have htext : bundle.text = Text.joinFilled (modules.map (·.stripped)) := by
    have hjoin := he.joinFilled_eq
    rwa [List.map_cons, List.map_nil, Text.joinFilled_singleton] at hjoin
  refine ⟨⟨_, hcodes⟩, fun codes hc hs => ?_⟩
  obtain rfl := List.right_unique_forall₂' space.rightUnique_hasCode hcodes hc
  rw [htext]
  exact Source.lexemes_joinFilled hs

/-- The entry `a` imports `b`, which opens a string and does not close it, and `c`, which ends with
a comment; its own code ends with the mark around a template. -/
def ragged : Workspace :=
  ofSources [("a.js", "import b from './b';\nimport c from './c';\na = \x60"),
    ("b.js", "b = 'it"), ("c.js", "5 // c's")]

/-- The codes of the ragged modules do not run into each other. -/
theorem lexemes_of_bundle_ragged :
    ragged.bundle ".js" "a.js" = .ok ⟨"/w/a.js", "b = 'it\n5 // c's\na = \x60",
      ["/w/b.js", "/w/c.js", "/w/a.js"]⟩ ∧
    (Source.tokens "b = 'it\n5 // c's\na = \x60").map Source.Token.lexeme =
      ["b = 'it", "5 // c's", "a = \x60"].flatMap fun code =>
        (Source.tokens code).map Source.Token.lexeme := by
  have hb : ragged.bundle ".js" "a.js" = .ok ⟨"/w/a.js",
      "b = 'it\n5 // c's\na = \x60", ["/w/b.js", "/w/c.js", "/w/a.js"]⟩ := by
    decide +kernel
  refine ⟨hb, (lexemes_of_bundle hb).2 _ ?_ (by decide +kernel)⟩
  refine .cons ?_ (.cons ?_ (.cons ?_ .nil))
  · exact ⟨"b = 'it", by decide +kernel, by decide +kernel⟩
  · exact ⟨"5 // c's", by decide +kernel, by decide +kernel⟩
  · exact ⟨"import b from './b';\nimport c from './c';\na = \x60",
      by decide +kernel, by decide +kernel⟩

end Workspace

end Bundler
