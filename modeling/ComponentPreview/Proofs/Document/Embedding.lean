import ComponentPreview.Proofs.Json.Legible
import ComponentPreview.Proofs.Stub.Definition

/-!
# Sources inside documents

A document opens and closes exactly the scripts that it is built from: whatever is taken from a
submission is escaped, written as JSON for a script, or made of names alone. The literal of the
source is read back as the script with its fallback.
-/

namespace ComponentPreview

open Markup

namespace Sandbox

theorem harmless_loader : Harmless loader := by
  refine Harmless.lines ?_
  simp only [loaderLines, List.forall_mem_cons, List.not_mem_nil, false_implies,
    implies_true, and_true]
  and_intros
  all_goals exact .ofList rfl

theorem harmless_style : Harmless style := by
  refine Harmless.lines ?_
  simp only [styleLines, List.forall_mem_cons, List.not_mem_nil, false_implies,
    implies_true, and_true]
  and_intros
  all_goals exact .ofList rfl

set_option maxRecDepth 4000 in
theorem harmless_prelude : Harmless prelude := by
  refine Harmless.lines ?_
  simp only [preludeLines, List.forall_mem_cons, List.not_mem_nil, false_implies,
    implies_true, and_true]
  and_intros
  all_goals exact .ofList rfl

theorem harmless_dropSlashes {cdn : String} (h : '<' ∉ cdn.toList) :
    Harmless (dropSlashes cdn) := by
  refine Harmless.of_not_mem fun mem => ?_
  rw [dropSlashes, String.toList_ofList, List.mem_reverse] at mem
  exact h (List.mem_reverse.1 ((List.dropWhile_sublist _).mem mem))

theorem harmless_scriptPaths : ∀ path ∈ scriptPaths, Harmless path := by
  simp only [scriptPaths, List.forall_mem_cons]
  have version : Harmless reactVersion := Harmless.ofList rfl
  have compiler : Harmless compilerVersion := Harmless.ofList rfl
  and_intros
  · exact ((Harmless.ofList rfl).append version).append (Harmless.ofList rfl)
  · exact ((Harmless.ofList rfl).append version).append (Harmless.ofList rfl)
  · exact ((Harmless.ofList rfl).append compiler).append (Harmless.ofList rfl)
  · simp

end Sandbox

namespace Document

/-! ## Overlays -/

/-- Rows with the names and the values of metrics. Only the values come from a submission. -/
theorem harmless_rows {opening middle closing : String} (open_ : Harmless opening)
    (mid : Harmless middle) (close : Harmless closing) {items : List (String × String)}
    (h : ∀ item ∈ items, Harmless item.1) :
    Harmless ("\n".intercalate (items.map fun (label, value) =>
      opening ++ label ++ middle ++ Markup.escape value ++ closing)) := by
  refine Harmless.lines (List.forall_mem_map.2 ?_)
  intro item mem
  exact (((open_.append (h item mem)).append mid).append (.escape item.2)).append close

theorem harmless_debugPanel (analysis : Analysis) : Harmless (debugPanel analysis) := by
  refine ((Harmless.ofList rfl).append ?_).append (.ofList rfl)
  refine harmless_rows (.ofList rfl) (.ofList rfl) (.ofList rfl) ?_
  simp only [List.forall_mem_cons, List.not_mem_nil, false_implies,
    implies_true, and_true]
  and_intros
  all_goals exact .ofList rfl

theorem harmless_performanceMonitor : Harmless performanceMonitor :=
  .ofList rfl

theorem harmless_accessibilityChecker (analysis : Analysis) :
    Harmless (accessibilityChecker analysis) := by
  refine ((((Harmless.ofList rfl).append (.toString_nat _)).append (.ofList rfl)).append ?_).append
    (.ofList rfl)
  split
  · exact .ofList rfl
  · refine .join (List.forall_mem_map.2 ?_)
    intro issue _
    exact ((Harmless.ofList rfl).append (.escape issue.message)).append (.ofList rfl)

theorem harmless_overlays (analysis : Analysis) (options : Json) :
    Harmless (overlays analysis options) := by
  refine .lines ?_
  intro overlay mem
  simp only [List.mem_append, List.mem_ite_nil_right, List.mem_singleton] at mem
  rcases mem with (⟨-, rfl⟩ | ⟨-, rfl⟩) | ⟨-, rfl⟩
  · exact harmless_debugPanel analysis
  · exact harmless_performanceMonitor
  · exact harmless_accessibilityChecker analysis

theorem harmless_componentInfo (analysis : Analysis) : Harmless (componentInfo analysis) := by
  refine ((Harmless.ofList rfl).append ?_).append (.ofList rfl)
  refine harmless_rows (.ofList rfl) (.ofList rfl) (.ofList rfl) ?_
  simp only [List.forall_mem_cons, List.not_mem_nil, false_implies,
    implies_true, and_true]
  and_intros
  all_goals exact .ofList rfl

/-! ## Scripts -/

/-- The number of scripts of a document. -/
def scriptCount (config : Config) : Nat :=
  if config.enableTailwind then 6 else 5

/-- The element that loads one script of the runtime. -/
def runtimeTag (cdn path : String) : String :=
  "<script crossorigin src=\"" ++ (Sandbox.dropSlashes cdn ++ path) ++ "\" data-fallback=\"" ++
    (Sandbox.fallbackCdn ++ path) ++ "\" onerror=\"__runtimeFallback(this)\"></script>"

def tailwindTag : String :=
  "<script src=\"" ++ Sandbox.tailwindCdn ++ "\"></script>"

theorem runtimeTags_eq (config : Config) :
    runtimeTags config = "\n".intercalate (Sandbox.scriptPaths.map (runtimeTag config.runtimeCdn) ++
      if config.enableTailwind then [tailwindTag] else []) := by
  rw [runtimeTags, Sandbox.runtimeScripts, List.map_map]
  rfl

theorem scripts_runtimeTag {cdn path : String} (h : '<' ∉ cdn.toList)
    (mem : path ∈ Sandbox.scriptPaths) : Scripts 1 1 (runtimeTag cdn path) := by
  have plain := Sandbox.harmless_scriptPaths path mem
  have primary := (Sandbox.harmless_dropSlashes h).append plain
  have backup : Harmless (Sandbox.fallbackCdn ++ path) := (Harmless.ofList rfl).append plain
  have opening : Scripts 1 0 "<script crossorigin src=\"" := .opening rfl
  have fallback : Harmless "\" data-fallback=\"" := .ofList rfl
  have handler : Harmless "\" onerror=\"__runtimeFallback(this)\">" := .ofList rfl
  have closing : Scripts 0 1 "</script>" := .closing rfl
  have last := (Scripts.of_harmless handler).append closing
  simp only [String.reduceAppend] at last
  exact (((opening.append (.of_harmless primary)).append (.of_harmless fallback)).append
    (.of_harmless backup)).append last

theorem scripts_tailwindTag : Scripts 1 1 tailwindTag := by
  have opening : Scripts 1 0 "<script src=\"" := .opening rfl
  have address : Harmless Sandbox.tailwindCdn := .ofList rfl
  have handler : Harmless "\">" := .ofList rfl
  have closing : Scripts 0 1 "</script>" := .closing rfl
  have last := (Scripts.of_harmless handler).append closing
  simp only [String.reduceAppend] at last
  exact (opening.append (.of_harmless address)).append last

/-- The runtime comes in all scripts but the loader and the prelude. -/
theorem scripts_runtimeTags {config : Config} (cdn : '<' ∉ config.runtimeCdn.toList) :
    Scripts (scriptCount config - 2) (scriptCount config - 2) (runtimeTags config) := by
  have runtime : List.Forall₂ (fun count text => Scripts count.1 count.2 text)
      [(1, 1), (1, 1), (1, 1)] (Sandbox.scriptPaths.map (runtimeTag config.runtimeCdn)) :=
    .cons (scripts_runtimeTag cdn (by simp [Sandbox.scriptPaths]))
      (.cons (scripts_runtimeTag cdn (by simp [Sandbox.scriptPaths]))
        (.cons (scripts_runtimeTag cdn (by simp [Sandbox.scriptPaths])) .nil))
  rw [runtimeTags_eq, scriptCount]
  split
  · have tailwind : List.Forall₂ (fun count text => Scripts count.1 count.2 text)
        [(1, 1)] [tailwindTag] := .cons scripts_tailwindTag .nil
    exact .lines (List.rel_append runtime tailwind)
  · rw [List.append_nil]
    exact .lines runtime

theorem harmless_contentSecurityPolicy (config : Config) :
    Harmless ("<meta http-equiv=\"Content-Security-Policy\" content=\"" ++
      Markup.escape (Sandbox.contentSecurityPolicy config.runtimeCdn config.enableTailwind) ++
      "\">") :=
  ((Harmless.ofList rfl).append (.escape _)).append (.ofList rfl)

theorem harmless_title (name : String) :
    Harmless ("<title>" ++ Markup.escape name ++ " - Live Preview</title>") :=
  ((Harmless.ofList rfl).append (.escape name)).append (.ofList rfl)

theorem scripts_loader : Scripts 1 1 ("<script>" ++ Sandbox.loader ++ "</script>") := by
  have opening : Scripts 1 0 "<script>" := .opening rfl
  have closing : Scripts 0 1 "</script>" := .closing rfl
  exact (opening.append (.of_harmless Sandbox.harmless_loader)).append closing

theorem scripts_head (name : String) {config : Config} (cdn : '<' ∉ config.runtimeCdn.toList) :
    List.Forall₂ (fun count text => Scripts count.1 count.2 text)
      [(0, 0), (0, 0), (0, 0), (0, 0), (0, 0), (0, 0), (0, 0), (1, 1),
        (scriptCount config - 2, scriptCount config - 2), (0, 0), (0, 0), (0, 0), (0, 0)]
      (head name config) := by
  have plain : ∀ {text : List Char}, isHarmless text = true → Scripts 0 0 (String.ofList text) :=
    fun h => .of_harmless (.ofList h)
  exact .cons (plain rfl) (.cons (plain rfl) (.cons (plain rfl) (.cons (plain rfl)
    (.cons (plain rfl) (.cons (.of_harmless (harmless_contentSecurityPolicy config))
      (.cons (.of_harmless (harmless_title name)) (.cons scripts_loader
        (.cons (scripts_runtimeTags cdn) (.cons (plain rfl)
          (.cons (.of_harmless Sandbox.harmless_style) (.cons (plain rfl)
            (.cons (plain rfl) .nil))))))))))))

theorem harmless_scriptJson (value : Json) : Harmless (scriptJson value) := by
  refine Harmless.of_not_mem fun mem => ?_
  exact absurd (not_isMarked_of_mem_scriptJson value '<' mem) (by decide)

/-- The assignment of the source, on a line of its own. -/
def sourceLine (script : Script) (name : String) : String :=
  "window.__PREVIEW_SOURCE__ = " ++ sourceLiteral script name ++ ";"

theorem harmless_sourceLine (script : Script) (name : String) :
    Harmless (sourceLine script name) :=
  ((Harmless.ofList rfl).append (harmless_scriptJson _)).append (.ofList rfl)

/-- The lines of a body before the source, of which the script that holds it is the last but one. -/
def beforeSource (analysis : Analysis) (config : Config) (options : Json) : List String := [
  "<body>",
  overlays analysis options,
  "<div class=\"preview-container\">",
  if (options.get "info").isTruthy then componentInfo analysis else "",
  "<div id=\"root\"></div>",
  "</div>",
  "<script>",
  "window.__PREVIEW_CONFIG__ = " ++ scriptJson (runtimeConfig analysis.componentName config) ++ ";"
]

def afterSource (stubs : List Stub) : List String := [
  Sandbox.prelude,
  "\n".intercalate (stubs.map Stub.definition),
  "</script>",
  "</body>",
  "</html>"
]

theorem body_eq (analysis : Analysis) (stubs : List Stub) (script : Script) (config : Config)
    (options : Json) :
    body analysis stubs script config options = beforeSource analysis config options ++
      sourceLine script analysis.componentName :: afterSource stubs :=
  rfl

theorem scripts_beforeSource (analysis : Analysis) (config : Config) (options : Json) :
    List.Forall₂ (fun count text => Scripts count.1 count.2 text)
      [(0, 0), (0, 0), (0, 0), (0, 0), (0, 0), (0, 0), (1, 0), (0, 0)]
      (beforeSource analysis config options) := by
  have plain : ∀ {text : List Char}, isHarmless text = true → Scripts 0 0 (String.ofList text) :=
    fun h => .of_harmless (.ofList h)
  have info : Harmless (if (options.get "info").isTruthy then componentInfo analysis else "") := by
    split
    · exact harmless_componentInfo analysis
    · exact .ofList rfl
  have limits : Harmless ("window.__PREVIEW_CONFIG__ = " ++
      scriptJson (runtimeConfig analysis.componentName config) ++ ";") :=
    ((Harmless.ofList rfl).append (harmless_scriptJson _)).append (.ofList rfl)
  have opening : Scripts 1 0 "<script>" := .opening rfl
  exact .cons (plain rfl) (.cons (.of_harmless (harmless_overlays analysis options))
    (.cons (plain rfl) (.cons (.of_harmless info) (.cons (plain rfl) (.cons (plain rfl)
      (.cons opening (.cons (.of_harmless limits) .nil)))))))

theorem scripts_afterSource {stubs : List Stub} (safe : ∀ stub ∈ stubs, stub.IsSafe) :
    List.Forall₂ (fun count text => Scripts count.1 count.2 text)
      [(0, 0), (0, 0), (0, 1), (0, 0), (0, 0)] (afterSource stubs) := by
  have definitions : Harmless ("\n".intercalate (stubs.map Stub.definition)) :=
    .lines (List.forall_mem_map.2 fun stub mem => .of_not_mem (safe stub mem))
  have closing : Scripts 0 1 "</script>" := .closing rfl
  exact .cons (.of_harmless Sandbox.harmless_prelude) (.cons (.of_harmless definitions)
    (.cons closing (.cons (.of_harmless (.ofList rfl)) (.cons (.of_harmless (.ofList rfl)) .nil))))

/-! ## Embedding -/

/-- A page opens and closes so many scripts, and the last of them assigns a literal that is read
as the source. -/
structure Embeds (html : String) (scripts : Nat) (source : String) : Prop where
  opened : countTag openTag html.toList = scripts
  closed : countTag closeTag html.toList = scripts
  assigned : ∃ before literal after,
    html = before ++ "\n" ++ ("window.__PREVIEW_SOURCE__ = " ++ literal ++ ";" ++ "\n" ++ after) ∧
    countTag openTag before.toList = scripts ∧ countTag closeTag before.toList + 1 = scripts ∧
    Json.readText literal.toList = .ok (.str source) ∧
    ∀ c ∈ literal.toList, isMarked c = false

theorem embeds_of_scripts {before after : String} {scripts : Nat} (script : Script) (name : String)
    (opened : Scripts (scripts + 1) scripts before) (closed : Scripts 0 1 after) :
    Embeds (before ++ "\n" ++ (sourceLine script name ++ "\n" ++ after)) (scripts + 1)
      (String.ofList script.text ++ entryFallback name) := by
  have newline : Scripts 0 0 "\n" := .of_harmless (.ofList rfl)
  have line := Scripts.of_harmless (harmless_sourceLine script name)
  have whole := (opened.append newline).append ((line.append newline).append closed)
  have counts := whole.countTag_eq
  simp only [Nat.add_zero, Nat.zero_add] at counts
  exact ⟨counts.1, counts.2, before, sourceLiteral script name, after, rfl, opened.countTag_eq.1,
    congrArg (· + 1) opened.countTag_eq.2, Json.readText_scriptJson_str _,
    not_isMarked_of_mem_scriptJson _⟩

theorem html_build (analysis : Analysis) (stubs : List Stub) (script : Script) (config : Config)
    (options : Json) :
    (build analysis stubs script config options).html =
      "\n".intercalate (head analysis.componentName config ++
        beforeSource analysis config options) ++ "\n" ++
      (sourceLine script analysis.componentName ++ "\n" ++
        "\n".intercalate (afterSource stubs)) := by
  have lead : head analysis.componentName config ++ beforeSource analysis config options ≠ [] :=
    List.cons_ne_nil _ _
  have more : afterSource stubs ≠ [] := List.cons_ne_nil _ _
  rw [← String.intercalate_cons_of_ne_nil more,
    ← String.intercalate_append_of_ne_nil lead (List.cons_ne_nil _ _), List.append_assoc, ← body_eq]
  rfl

theorem embeds_build (analysis : Analysis) {stubs : List Stub} (script : Script) {config : Config}
    (options : Json) (cdn : '<' ∉ config.runtimeCdn.toList)
    (safe : ∀ stub ∈ stubs, stub.IsSafe) :
    Embeds (build analysis stubs script config options).html (scriptCount config)
      (String.ofList script.text ++ entryFallback analysis.componentName) := by
  have before := Scripts.lines (List.rel_append
    (scripts_head analysis.componentName cdn) (scripts_beforeSource analysis config options))
  have after := Scripts.lines (scripts_afterSource safe)
  have count : scriptCount config = 1 + (scriptCount config - 2) + 1 := by
    unfold scriptCount
    split <;> decide
  rw [html_build, count]
  refine embeds_of_scripts script analysis.componentName ?_ after
  simpa [Nat.add_assoc] using before

end Document

namespace Preview

/-- The page of an accepted source opens and closes no script but its own, whatever the source, the
options and earlier previews of the session hold, and assigns exactly the script of the source with
its fallback. -/
theorem accepted_source_is_embedded {setting : Setting} {request : Request} {script : Script}
    (cdn : '<' ∉ setting.config.runtimeCdn.toList) (reached : setting.registry.Reached)
    (accepted : (Validation.of setting.config ⟨request.code⟩
      (Analysis.ofText request.code)).isValid = true)
    (made : setting.makeScript request.code = .ok script) :
    (build setting request).status = 200 ∧
    ∃ success, (build setting request).success = some success ∧
      Document.Embeds success.document.html (Document.scriptCount setting.config)
        (String.ofList script.text ++
          Document.entryFallback (Analysis.ofText request.code).componentName) := by
  have safe := Synthesis.isSafe_ofText request.code (seededNames request.options) reached.isSafe
  have embeds := Document.embeds_build (Analysis.ofText request.code) script request.options cdn
    safe.stubs
  unfold build
  simp only [accepted, Bool.not_true, Bool.false_eq_true, if_false, made]
  exact ⟨trivial, _, rfl, embeds⟩

/-- A source that holds the closing tag of a script, after a preview that asked for a stub. -/
theorem closing_tag_is_embedded :
    let asked : Request := ⟨['x'], .obj [("stubs", .ofStrings ["Card"])], none, 1, false⟩
    let setting : Setting := { registry := (build {} asked).registry }
    let request : Request := { code := ['a', '<', '/', 's', 'c', 'r', 'i', 'p', 't', '>'] }
    let script := Script.ofText Script.entryAssignment request.code
    '<' ∉ setting.config.runtimeCdn.toList ∧ setting.registry.Reached ∧
    (Validation.of setting.config ⟨request.code⟩ (Analysis.ofText request.code)).isValid = true ∧
    setting.makeScript request.code = .ok script ∧
    (build setting request).status = 200 ∧
    ∃ success, (build setting request).success = some success ∧
      Document.Embeds success.document.html (Document.scriptCount setting.config)
        (String.ofList script.text ++
          Document.entryFallback (Analysis.ofText request.code).componentName) := by
  intro asked setting request script
  have cdn : '<' ∉ setting.config.runtimeCdn.toList := by decide
  have reached : setting.registry.Reached := .build asked .empty
  have accepted : (Validation.of setting.config ⟨request.code⟩
      (Analysis.ofText request.code)).isValid = true := by decide
  have made : setting.makeScript request.code = .ok script := rfl
  exact ⟨cdn, reached, accepted, made, accepted_source_is_embedded cdn reached accepted made⟩

end Preview

end ComponentPreview
