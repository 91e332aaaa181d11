import StoryScript.Proofs.Document.Command
import StoryScript.Source

/-! # Scripts kept in documents

A script is kept as the indented document of its command tree. It is read back as it was if and
only if its numbers are finite and the document is not nested too deeply, provided that a finite
number of the script is what its own document holds. If its decimal is short, it is.
-/

namespace StoryScript

namespace Script

/-- Whether a script can be kept: its numbers are finite, and its document nests no more arrays
and objects than can be read. -/
structure Storable (script : List Command) : Prop where
  finite : ∀ x ∈ Command.numbersOf script, x.isFinite = true
  depth : (scriptToJson script).depth ≤ 127

/-- What is read of the document in which the script of a text is kept. -/
def ofTextDocument (tabWidth : UInt64) (text : String) : Except SourceError (List Command) :=
  (ofText tabWidth text).bind fun script => ofDocument (scriptToJson script).indented

theorem ofDocument_eq_ok_iff {text : String} {script : List Command} :
    ofDocument text = .ok script ↔ (Json.read? text.toList).bind scriptOfJson? = some script := by
  rw [ofDocument]
  split
  · rename_i found hfound
    rw [hfound]
    exact ⟨fun h => by cases h; rfl, fun h => by cases h; rfl⟩
  · rename_i hnone
    rw [hnone]
    exact ⟨nofun, nofun⟩

theorem isReadable_scriptToJson {script : List Command}
    (h : ∀ x ∈ Command.numbersOf script, x.ReadsBack) :
    (scriptToJson script).reread.isReadable = true := by
  rw [Command.numbersOf_eq_flatMap, List.forall_mem_flatMap] at h
  rw [scriptToJson_eq_array, Json.isReadable_reread_array]
  exact fun command hcommand => Command.isReadable_reread (h command hcommand)

/-- A script is read back from its document if and only if all its numbers are and the document
is not nested too deeply. -/
theorem ofDocument_indented_iff_readsBack {script : List Command} :
    ofDocument (scriptToJson script).indented = .ok script ↔
      (∀ x ∈ Command.numbersOf script, x.ReadsBack) ∧ (scriptToJson script).depth ≤ 127 := by
  rw [ofDocument_eq_ok_iff, Json.indented, String.toList_ofList, Json.read?_write]
  constructor
  · intro h
    split at h
    · rename_i hread
      exact ⟨scriptOfJson?_reread.1 h, hread.1⟩
    · cases h
  · rintro ⟨hnumbers, hdepth⟩
    rw [if_pos ⟨hdepth, isReadable_scriptToJson hnumbers⟩]
    exact scriptOfJson?_reread.2 hnumbers

/-- If every finite number of a script that has no short decimal is what its own document holds,
the script is read back from its indented document exactly if it can be kept. So is a script that
has been read from a text. -/
theorem ofDocument_indented_iff {script : List Command}
    (hnumbers : ∀ x ∈ Command.numbersOf script, x.isFinite = true → ¬x.IsShort → x.ReadsBack) :
    (ofDocument (scriptToJson script).indented = .ok script ↔ Storable script) ∧
      ∀ tabWidth text, ofText tabWidth text = .ok script →
        (ofTextDocument tabWidth text = ofText tabWidth text ↔ Storable script) := by
  have hscript : ofDocument (scriptToJson script).indented = .ok script ↔ Storable script := by
    rw [ofDocument_indented_iff_readsBack]
    constructor
    · rintro ⟨hreads, hdepth⟩
      exact ⟨fun x hx => (hreads x hx).isFinite, hdepth⟩
    · intro h
      have hreads (x : Number) (hx : x ∈ Command.numbersOf script) : x.ReadsBack :=
        Number.readsBack_of_not_isShort (hnumbers x hx (h.finite x hx))
      exact ⟨hreads, h.depth⟩
  refine ⟨hscript, fun tabWidth text htext => ?_⟩
  rw [← hscript, ofTextDocument, htext]
  rfl

def half : Number :=
  .finite false ⟨2 ^ 52, 1021, by decide⟩

/-- A script with a call inside a call, characters that are escaped, a choice outside any menu and
an unsupported command. -/
def keepsake : List Command :=
  [.define "e" "Character(\"Eileen\", size=scale(0.5, x))" (some ⟨"Character",
      [⟨none, .text "Ei\"leen\\\n\x01é"⟩,
        ⟨some "size", .call "scale" [⟨none, .number half⟩, ⟨none, .name "x"⟩]⟩]⟩),
    .menu [⟨"Stay", [.label "hall" [.pause (some .aboveThreeTenths), .unsupported]]⟩, ⟨"", []⟩],
    .strayChoice ⟨"Leave", [.playMusic "rain.ogg" none, .stopMusic (some half)]⟩]

theorem ofDocument_keepsake :
    (∀ x ∈ Command.numbersOf keepsake, x.isFinite = true → ¬x.IsShort → x.ReadsBack) ∧
      (Command.numbersOf keepsake).map (fun x => decide x.IsShort) = [true, false, true] ∧
      Storable keepsake ∧
      ofDocument (scriptToJson keepsake).indented = .ok keepsake := by
  have hnumbers : ∀ x ∈ Command.numbersOf keepsake, x.isFinite = true → ¬x.IsShort →
      x.ReadsBack := by
    decide +kernel
  have hshort : (Command.numbersOf keepsake).map (fun x => decide x.IsShort) =
      [true, false, true] := by
    decide +kernel
  have hstorable : Storable keepsake := ⟨by decide, by decide⟩
  exact ⟨hnumbers, hshort, hstorable, (ofDocument_indented_iff hnumbers).1.2 hstorable⟩

end Script

end StoryScript
