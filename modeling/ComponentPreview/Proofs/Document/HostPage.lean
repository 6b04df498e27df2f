import ComponentPreview.Document.HostPage
import ComponentPreview.Proofs.Json.Legible
import ComponentPreview.Proofs.Text.Reference

/-!
# Documents inside host pages

A host page holds one script, its own. The document stands escaped in an attribute of the frame, and
what the script knows of it is written as JSON: neither ends before its place does, whatever the
session, the component and the document are called or hold.
-/

namespace ComponentPreview

open Markup

namespace HostPage

/-! ## What fills the page -/

theorem harmless_escapeAttribute (text : String) : Harmless (escapeAttribute text) := by
  refine .of_not_mem fun mem => ?_
  exact not_mem_of_mem_escapeAttribute text '<' mem (by decide)

theorem not_mem_of_mem_asciiScriptJson (value : Json) :
    ∀ c ∈ (asciiScriptJson value).toList, c ∉ ['<', '>', '&'] := by
  rw [toList_asciiScriptJson]
  intro c mem
  obtain ⟨d, -, mem⟩ := List.mem_flatMap.1 mem
  rcases inScript?_cases d with ⟨none, opening, closing, ampersand⟩ | ⟨digits, some, -, -, clean⟩
  · rw [replaced_of_none none, List.mem_singleton] at mem
    simp [mem, opening, closing, ampersand]
  · rw [replaced_of_some some] at mem
    have plain := clean c mem
    simp only [isMarked, Bool.or_eq_false_iff, beq_eq_false_iff_ne] at plain
    simp [plain]

theorem harmless_version (version : Int) : Harmless (toString version) := by
  refine .of_not_mem fun mem => ?_
  have mem : '<' ∈ version.repr.toList := mem
  exact absurd (Json.isDigit_or_minus_of_mem_repr mem) (by decide)

theorem legible_state (session : String) {version : Int} (short : Json.IsShort version) :
    Json.Legible Json.maxDepth (state session version) := by
  have interval : Json.IsShort pollInterval :=
    (by decide : 1500 < 10 ^ 4).trans_le (Nat.pow_le_pow_right (by decide) (by decide))
  refine .obj (by simp) ?_
  simp only [List.forall_mem_cons]
  exact ⟨.str session, .int short, .int interval, by simp⟩

/-- The state is read back, unless its version is too long for JSON. -/
theorem reads_state_iff (session : String) (version : Int) :
    (∃ value, Json.readText (asciiScriptJson (state session version)).toList = .ok value ∧
      value.get "sessionId" = .str session ∧ value.get "version" = .int version) ↔
    Json.IsShort version := by
  constructor
  · rintro ⟨value, read, -, carried⟩
    exact ((Json.isMeasured_of_readText read).get "version").isShort (by rw [carried]; rfl)
  · intro short
    rw [← Hand.write_inAsciiScript]
    refine ⟨_, Json.readText_write _ (legible_state session short), ?_, ?_⟩ <;>
      simp [state, Json.get, Named.get?]

/-! ## The page around it -/

/-- The lines of a page before the frame. -/
def frontLines (version : Int) (document : Document) : List String :=
  [
    "<!DOCTYPE html>",
    "<html lang=\"en\">",
    "<head>",
    "<meta charset=\"UTF-8\">",
    "<meta name=\"viewport\" content=\"width=device-width, initial-scale=1.0\">",
    "<title>" ++ escapeAttribute (document.componentName ++ " - Live Preview") ++ "</title>"] ++
  styleLines ++ [
    "</head>",
    "<body>",
    "<div class=\"toolbar\">",
    "  <strong>" ++ escapeAttribute document.componentName ++ "</strong><span>v" ++
      toString version ++ "</span>",
    "  <button type=\"button\" id=\"fullscreen\">Fullscreen</button>",
    "  <span class=\"status\" id=\"status\" data-state=\"rendering\">rendering…</span>",
    "</div>"]

theorem harmless_styleLines : ∀ line ∈ styleLines, Harmless line := by
  simp only [styleLines, List.forall_mem_cons, List.not_mem_nil, false_implies,
    implies_true, and_true]
  and_intros
  all_goals exact .ofList rfl

theorem harmless_frontLines (version : Int) (document : Document) :
    ∀ line ∈ frontLines version document, Harmless line := by
  have title : Harmless ("<title>" ++ escapeAttribute (document.componentName ++
      " - Live Preview") ++ "</title>") :=
    ((Harmless.ofList rfl).append (harmless_escapeAttribute _)).append (.ofList rfl)
  have heading : Harmless ("  <strong>" ++ escapeAttribute document.componentName ++
      "</strong><span>v" ++ toString version ++ "</span>") :=
    ((((Harmless.ofList rfl).append (harmless_escapeAttribute _)).append (.ofList rfl)).append
      (harmless_version version)).append (.ofList rfl)
  simp only [frontLines, List.forall_mem_append, List.forall_mem_cons]
  refine ⟨⟨⟨.ofList rfl, .ofList rfl, .ofList rfl, .ofList rfl, .ofList rfl, title, by simp⟩,
    harmless_styleLines⟩, .ofList rfl, .ofList rfl, .ofList rfl, heading, .ofList rfl, .ofList rfl,
    .ofList rfl, by simp⟩

/-- The script after its state, up to where its element ends. -/
def statements : List String :=
  scriptLines.take 51

theorem scriptLines_eq :
    scriptLines = statements ++ ["</script>", "</body>", "</html>", ""] :=
  rfl

theorem harmless_statements : ∀ line ∈ statements, Harmless line := by
  simp only [statements, scriptLines, List.take, List.forall_mem_cons, List.not_mem_nil, false_implies,
    implies_true, and_true]
  and_intros
  all_goals exact .ofList rfl

theorem scripts_scriptLines : Scripts 0 1 ("\n".intercalate scriptLines) := by
  rw [scriptLines_eq]
  refine .around harmless_statements (.closing rfl) ?_
  simp only [List.forall_mem_cons]
  exact ⟨.ofList rfl, .ofList rfl, .ofList rfl, by simp⟩

/-- A frame that shows a document in a sandbox. -/
def frame (title sandbox value : String) : String :=
  "<iframe id=\"preview\" title=\"" ++ title ++ " preview\" sandbox=\"" ++ sandbox ++
    "\" srcdoc=\"" ++ value ++ "\"></iframe>"

/-- The lines that begin a script with the state it knows of. -/
def stateLines (literal : String) : List String :=
  ["<script>", "(function () \x7b", "  var state = " ++ literal ++ ";"]

theorem harmless_frame (name text : String) :
    Harmless (frame (escapeAttribute name) "allow-scripts" (escapeAttribute text)) :=
  ((((((Harmless.ofList rfl).append (harmless_escapeAttribute name)).append (.ofList rfl)).append
    (.ofList rfl)).append (.ofList rfl)).append (harmless_escapeAttribute text)).append
    (.ofList rfl)

theorem scripts_stateLines (value : Json) :
    Scripts 1 0 ("\n".intercalate (stateLines (asciiScriptJson value))) := by
  have literal : Harmless (asciiScriptJson value) := by
    refine .of_not_mem fun mem => ?_
    exact not_mem_of_mem_asciiScriptJson value '<' mem (by decide)
  have assigned : Harmless ("  var state = " ++ asciiScriptJson value ++ ";") :=
    ((Harmless.ofList rfl).append literal).append (.ofList rfl)
  refine @Scripts.around 1 0 [] _ _ (by simp) (.opening rfl) ?_
  simp only [List.forall_mem_cons]
  exact ⟨.ofList rfl, assigned, by simp⟩

theorem escapeAttribute_sandboxAttribute :
    escapeAttribute Document.sandboxAttribute = "allow-scripts" := by
  decide

theorem render_eq (session : String) (version : Int) (document : Document) :
    render session version document =
      "\n".intercalate (frontLines version document) ++ "\n" ++
        frame (escapeAttribute document.componentName) "allow-scripts"
          (escapeAttribute document.html) ++ "\n" ++
        "\n".intercalate (stateLines (asciiScriptJson (state session version))) ++ "\n" ++
        "\n".intercalate scriptLines := by
  have lines : render session version document =
      "\n".intercalate (frontLines version document ++
        frame (escapeAttribute document.componentName) "allow-scripts"
          (escapeAttribute document.html) ::
        (stateLines (asciiScriptJson (state session version)) ++ scriptLines)) := by
    rw [render, escapeAttribute_sandboxAttribute]
    rfl
  have front : frontLines version document ≠ [] := List.cons_ne_nil _ _
  have opening (literal : String) : stateLines literal ≠ [] := List.cons_ne_nil _ _
  have script : scriptLines ≠ [] := List.cons_ne_nil _ _
  rw [lines, String.intercalate_append_of_ne_nil front (List.cons_ne_nil _ _),
    String.intercalate_cons_of_ne_nil (List.append_ne_nil_of_left_ne_nil (opening _) _),
    String.intercalate_append_of_ne_nil (opening _) script]
  simp only [String.append_assoc]

/-- A host page opens and closes one script, whatever it is filled with. Its frame allows scripts
and nothing else, and holds the document escaped: the value ends where its quotes do, and gives the
document back. The script begins with a literal that does not end it either, and that is read as the
session and the version, unless the version is too long for JSON. -/
theorem page_shows_document (references : References) (session : String) (version : Int)
    (document : Document) :
    countTag openTag (render session version document).toList = 1 ∧
      countTag closeTag (render session version document).toList = 1 ∧
      ∃ before title value literal after : String,
        render session version document =
          before ++ "\n" ++ frame title "allow-scripts" value ++ "\n" ++
            "\n".intercalate (stateLines literal) ++ "\n" ++ after ∧
        (∀ c ∈ value.toList, c ∉ ['<', '>', '"']) ∧
        unescape references value.toList = document.html.toList ∧
        (∀ c ∈ title.toList, c ∉ ['<', '>', '"']) ∧
        unescape references title.toList = document.componentName.toList ∧
        (∀ c ∈ literal.toList, c ∉ ['<', '>', '&']) ∧
        ((∃ state, Json.readText literal.toList = .ok state ∧
          state.get "sessionId" = .str session ∧ state.get "version" = .int version) ↔
          Json.IsShort version) := by
  have newline : Scripts 0 0 "\n" := .of_harmless (.ofList rfl)
  have front := Scripts.of_harmless (.lines (harmless_frontLines version document))
  have shown := Scripts.of_harmless (harmless_frame document.componentName document.html)
  have counts := ((((((front.append newline).append shown).append newline).append
    (scripts_stateLines (state session version))).append newline).append
      scripts_scriptLines).countTag_eq
  rw [← render_eq] at counts
  have plain (text : String) : ∀ c ∈ (escapeAttribute text).toList, c ∉ ['<', '>', '"'] := by
    intro c mem marked
    exact not_mem_of_mem_escapeAttribute text c mem (List.mem_append_left ['\''] marked)
  exact ⟨counts.1, counts.2, _, _, _, _, _, render_eq session version document, plain _,
    unescape_escapeAttribute references _, plain _, unescape_escapeAttribute references _,
    not_mem_of_mem_asciiScriptJson _, reads_state_iff session version⟩

end HostPage

end ComponentPreview
