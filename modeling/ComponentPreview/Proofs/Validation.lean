import ComponentPreview.Preview
import ComponentPreview.Proofs.Script.Token

/-!
# Dangerous sources

Which labels a validation lists for a source, what other lines around the source do to them
(`dangerous_within`), and how they compare with the analysis, which looks for the same danger by
patterns of its own (`dangerous_iff`).
-/

namespace ComponentPreview

namespace Token

variable {token : Token} {text : List Char}

/-- A token of a text is also in the text with other lines around it. -/
theorem OccursIn.within (h : token.OccursIn text) (follows : token.follows (some '\n'))
    (precedes : token.precedes (some '\n')) (pre post : List Char) :
    token.OccursIn (pre ++ '\n' :: (text ++ '\n' :: post)) := by
  obtain ⟨left, word, right, rfl, fits⟩ := h
  refine ⟨pre ++ '\n' :: left, word, right ++ '\n' :: post, by simp, ?_, fits.reads, ?_⟩
  · rcases List.eq_nil_or_concat left with rfl | ⟨others, c, rfl⟩
    · simpa using follows
    · simpa [List.getLast?_cons] using fits.follows
  · cases right with
    | nil => simpa using precedes
    | cons c right => simpa using fits.precedes

theorem OccursIn.not_blank (h : token.OccursIn text) (mark : Char) (shown : isBlank mark = false)
    (spelled : ∀ word, token.reads word → mark ∈ word) : text.all isBlank = false := by
  obtain ⟨left, word, right, rfl, fits⟩ := h
  have mem : mark ∈ left ++ (word ++ right) := by
    simp [spelled word fits.reads]
  rw [List.all_eq_false]
  exact ⟨mark, mem, by simp [shown]⟩

/-- A call of a member of something. -/
def memberCall (name : List Char) : Token where
  follows previous := previous = some '.'
  reads word := ∃ blanks, (∀ c ∈ blanks, isBlank c = true) ∧ word = name ++ (blanks ++ ['('])
  precedes _ := True

/-- Shunning the point as well leaves out the calls of members. -/
theorem occursIn_call_iff (name text : List Char) :
    (call isNameChar name).OccursIn text ↔
      (call (fun c => isNameChar c || c == '.') name).OccursIn text ∨
        (memberCall name).OccursIn text := by
  constructor
  · rintro ⟨left, word, right, rfl, fits⟩
    by_cases point : left.getLast? = some '.'
    · right
      exact ⟨left, word, right, rfl, point, fits.reads, trivial⟩
    · left
      refine ⟨left, word, right, rfl, ?_, fits.reads, trivial⟩
      intro c last
      have plain := fits.follows c last
      have other : c ≠ '.' := by
        rintro rfl
        exact point last
      simp [plain, other]
  · rintro (⟨left, word, right, rfl, fits⟩ | ⟨left, word, right, rfl, fits⟩)
    · refine ⟨left, word, right, rfl, ?_, fits.reads, trivial⟩
      intro c last
      have shunned := fits.follows c last
      simp only [Bool.or_eq_false_iff] at shunned
      exact shunned.1
    · refine ⟨left, word, right, rfl, ?_, fits.reads, trivial⟩
      intro c last
      have point : left.getLast? = some '.' := fits.follows
      rw [point] at last
      cases last
      decide

end Token

namespace DynamicCode

variable (primitive : DynamicCode)

theorem follows_newline : primitive.token.follows (some '\n') := by
  cases primitive <;>
    simp only [token, Token.call, Token.timer, Option.mem_some_iff, forall_eq'] <;> decide

theorem precedes_newline : primitive.token.precedes (some '\n') := by
  cases primitive <;> trivial

theorem parenthesis_mem {word : List Char} (h : primitive.token.reads word) : '(' ∈ word := by
  cases primitive with
  | evaluation | functionConstructor =>
      obtain ⟨blanks, -, rfl⟩ := h
      simp
  | textTimer =>
      obtain ⟨name, -, blanks, blanks', mark, -, -, -, rfl⟩ := h
      simp

end DynamicCode

namespace Validation

variable {config : Config} {source : Source} {analysis : Analysis} {text : List Char}
  {label : String} {labels : List String}

theorem follows_newline (keyword : String) : (keywordToken keyword).follows (some '\n') := by
  unfold keywordToken
  split <;> simp only [Token.call, Token.whole, Option.mem_some_iff, forall_eq'] <;> decide

theorem precedes_newline (keyword : String) : (keywordToken keyword).precedes (some '\n') := by
  unfold keywordToken
  split
  · trivial
  · simp only [Token.whole, Option.mem_some_iff, forall_eq']
    decide

/-! ## The labels of a text -/

private theorem mem_foldl_labels (keywords found : List String) :
    label ∈ keywords.foldl (fun found keyword =>
        if found.contains (keywordLabel keyword) then found
        else found ++ [keywordLabel keyword]) found ↔
      label ∈ found ∨ ∃ keyword ∈ keywords, keywordLabel keyword = label := by
  induction keywords generalizing found with
  | nil => simp
  | cons keyword keywords ih =>
      rw [List.foldl_cons, ih]
      simp only [List.mem_cons, exists_eq_or_imp]
      by_cases known : keywordLabel keyword ∈ found
      · rw [if_pos (List.contains_iff_mem.2 known)]
        have given : keywordLabel keyword = label → label ∈ found := by
          rintro rfl
          exact known
        rw [← or_assoc, or_iff_left_of_imp given]
      · rw [if_neg (mt List.contains_iff_mem.1 known), List.mem_append, List.mem_singleton,
          or_assoc, @eq_comm _ label]

/-- A label stands for a primitive of dynamic code or for a blocked keyword, wherever it is. -/
theorem mem_dangers_iff :
    label ∈ dangers config text ↔
      (∃ primitive : DynamicCode, primitive.token.OccursIn text ∧ primitive.label = label) ∨
      ∃ keyword ∈ config.blockedKeywords, (keywordToken keyword).OccursIn text ∧
        keywordLabel keyword = label := by
  rw [dangers, mem_foldl_labels]
  simp only [List.mem_map, DynamicCode.mem_usages_iff, mem_blockedIn_iff, and_assoc]

theorem dangers_ne_nil_iff :
    dangers config text ≠ [] ↔
      (∃ primitive : DynamicCode, primitive.token.OccursIn text) ∨
      ∃ keyword ∈ config.blockedKeywords, (keywordToken keyword).OccursIn text := by
  constructor
  · intro some
    obtain ⟨label, mem⟩ := List.exists_mem_of_ne_nil _ some
    rcases mem_dangers_iff.1 mem with ⟨primitive, occurs, -⟩ | ⟨keyword, given, occurs, -⟩
    · exact .inl ⟨primitive, occurs⟩
    · exact .inr ⟨keyword, given, occurs⟩
  · rintro (⟨primitive, occurs⟩ | ⟨keyword, given, occurs⟩)
    · exact List.ne_nil_of_mem (mem_dangers_iff.2 (.inl ⟨primitive, occurs, rfl⟩))
    · exact List.ne_nil_of_mem (mem_dangers_iff.2 (.inr ⟨keyword, given, occurs, rfl⟩))

/-- Lines around a text take no label away. -/
theorem dangers_subset_within (config : Config) (pre text post : List Char) :
    dangers config text ⊆ dangers config (pre ++ '\n' :: (text ++ '\n' :: post)) := by
  intro label
  simp only [mem_dangers_iff]
  rintro (⟨primitive, occurs, rfl⟩ | ⟨keyword, given, occurs, rfl⟩)
  · left
    exact ⟨primitive, occurs.within primitive.follows_newline primitive.precedes_newline pre post,
      rfl⟩
  · right
    exact ⟨keyword, given,
      occurs.within (follows_newline keyword) (precedes_newline keyword) pre post, rfl⟩

theorem mem_rejections_iff :
    .dangerous labels ∈ (Validation.of config source analysis).rejections ↔
      source.text.all isBlank = false ∧ labels = dangers config source.text ∧
        dangers config source.text ≠ [] := by
  unfold Validation.of
  cases source.text.all isBlank with
  | true => simp
  | false =>
      have sized : Rejection.dangerous labels ∉ (if config.maxCodeSize < source.byteLength then
          [Rejection.tooLarge config.maxCodeSize] else []) := by
        split <;> simp
      simp only [Bool.false_eq_true, if_false, rejectionsOf, List.mem_append, sized, false_or,
        true_and]
      by_cases none : dangers config source.text = []
      · simp [none]
      · simp [none]

/-- Nothing on the lines around a dangerous source hides it, or any of the labels it has. -/
theorem dangerous_within (config : Config) (text pre post : List Char)
    (analysis analysis' : Analysis)
    (h : .dangerous labels ∈ (Validation.of config ⟨text⟩ analysis).rejections) :
    ∃ labels', labels ⊆ labels' ∧
      .dangerous labels' ∈ (Validation.of config ⟨pre ++ '\n' :: (text ++ '\n' :: post)⟩
        analysis').rejections := by
  obtain ⟨shown, rfl, some⟩ := mem_rejections_iff.1 h
  have subset := dangers_subset_within config pre text post
  refine ⟨dangers config (pre ++ '\n' :: (text ++ '\n' :: post)), subset,
    mem_rejections_iff.2 ⟨?_, rfl, ?_⟩⟩
  · obtain ⟨c, mem, other⟩ := List.all_eq_false.1 shown
    rw [List.all_eq_false]
    exact ⟨c, by simp [mem], other⟩
  · intro none
    rw [none] at subset
    exact some (List.subset_nil.1 subset)

theorem blocked_name_within :
    let config : Config := { blockedKeywords := ["localStorage"] }
    let text := "localStorage.clear()".toList
    ∃ labels', ["localStorage"] ⊆ labels' ∧
      .dangerous labels' ∈ (Validation.of config
        ⟨"eval(1) /*".toList ++ '\n' :: (text ++ '\n' :: "*/".toList)⟩
        (Analysis.ofText [])).rejections :=
  dangerous_within _ _ _ _ (Analysis.ofText []) _ (by decide +kernel)

/-! ## The labels and the analysis -/

theorem hasDynamicCode_iff :
    (Security.ofText text).hasDynamicCode = true ↔
      ∃ primitive : DynamicCode, primitive.token.OccursIn text := by
  simp only [← DynamicCode.mem_usages_iff]
  cases found : DynamicCode.usages text with
  | nil => simp [Security.hasDynamicCode, Security.ofText, found]
  | cons primitive others =>
      simp only [Security.hasDynamicCode, Security.ofText, found, List.isEmpty_cons, Bool.not_false,
        true_iff]
      exact ⟨primitive, List.mem_cons_self⟩

theorem hasDynamicCode_iff_critical (security : Security) :
    security.hasDynamicCode = true ↔ security.risk = .critical := by
  unfold Security.risk
  cases security.hasDynamicCode with
  | true => simp
  | false => cases security.hasHtmlInjection <;> simp

/-- By default the keywords add the calls of a member named like the constructor. -/
theorem dangers_default_ne_nil_iff :
    dangers {} text ≠ [] ↔
      (Security.ofText text).hasDynamicCode = true ∨
        (Token.memberCall "Function".toList).OccursIn text := by
  have evaluation : keywordToken "eval(" = DynamicCode.evaluation.token := rfl
  have construction : (keywordToken "Function(").OccursIn text ↔
      DynamicCode.functionConstructor.token.OccursIn text ∨
        (Token.memberCall "Function".toList).OccursIn text :=
    Token.occursIn_call_iff _ _
  rw [dangers_ne_nil_iff, hasDynamicCode_iff]
  simp only [List.mem_cons, List.not_mem_nil, or_false, exists_eq_or_imp, exists_eq_left,
    evaluation, construction]
  constructor
  · rintro (used | occurs | occurs | member)
    · exact .inl used
    · exact .inl ⟨_, occurs⟩
    · exact .inl ⟨_, occurs⟩
    · exact .inr member
  · rintro (used | member)
    · exact .inl used
    · exact .inr (.inr (.inr member))

theorem all_isBlank_eq_false (h : dangers {} text ≠ []) : text.all isBlank = false := by
  rcases dangers_default_ne_nil_iff.1 h with used | member
  · obtain ⟨primitive, occurs⟩ := hasDynamicCode_iff.1 used
    exact occurs.not_blank '(' (by decide) fun _ => primitive.parenthesis_mem
  · apply member.not_blank '(' (by decide)
    rintro word ⟨blanks, -, rfl⟩
    simp

theorem exists_dangerous_iff :
    (∃ labels, .dangerous labels ∈ (Validation.of {} source analysis).rejections) ↔
      (Security.ofText source.text).hasDynamicCode = true ∨
        (Token.memberCall "Function".toList).OccursIn source.text := by
  simp only [mem_rejections_iff, ← dangers_default_ne_nil_iff]
  constructor
  · rintro ⟨labels, -, -, some⟩
    exact some
  · intro some
    exact ⟨_, all_isBlank_eq_false some, rfl, some⟩

theorem riskLevel_of_rejected (setting : Preview.Setting) (request : Preview.Request)
    (rejected : (Validation.of setting.config ⟨request.code⟩
      (Analysis.ofText request.code)).rejections ≠ []) :
    (((Preview.build setting request).body.get "partialAnalysis").get "security").get "riskLevel" =
      .str (Analysis.ofText request.code).security.risk.label := by
  have invalid : (Validation.of setting.config ⟨request.code⟩
      (Analysis.ofText request.code)).isValid = false := by
    rw [isValid, List.isEmpty_eq_false_iff]
    exact rejected
  unfold Preview.build
  simp only [invalid, Bool.not_false, if_true]
  simp [Preview.rejectionBody, Analysis.encode, Analysis.encodeSecurity, Json.get, Named.get?]

/-- By default a source is rejected as dangerous just if the analysis finds dynamic code in it, or
a call of a member named like the constructor, which the analysis takes for something else. -/
theorem dangerous_iff (registry : Registry) (makeScript : ScriptMaker) (now : Instant)
    (serial : Nat) (request : Preview.Request) :
    let security := (Analysis.ofText request.code).security
    let rejections := (Validation.of {} ⟨request.code⟩ (Analysis.ofText request.code)).rejections
    let body := (Preview.build { registry, makeScript, now, serial } request).body
    ((∃ labels, .dangerous labels ∈ rejections) ↔ security.hasDynamicCode = true ∨
      (Token.memberCall "Function".toList).OccursIn request.code) ∧
    (security.hasDynamicCode = true ↔ security.risk = .critical) ∧
    (rejections = [] → security.risk ≠ .critical) ∧
    (rejections ≠ [] → ((body.get "partialAnalysis").get "security").get "riskLevel" =
      .str security.risk.label) := by
  intro security rejections body
  have danger : (∃ labels, .dangerous labels ∈ rejections) ↔ security.hasDynamicCode = true ∨
      (Token.memberCall "Function".toList).OccursIn request.code := exists_dangerous_iff
  have critical := hasDynamicCode_iff_critical security
  refine ⟨danger, critical, ?_, riskLevel_of_rejected { registry, makeScript, now, serial } request⟩
  intro accepted risk
  obtain ⟨labels, mem⟩ := danger.2 (.inl (critical.2 risk))
  rw [accepted] at mem
  cases mem

theorem member_constructor_uncritical :
    let text := "window.Function('x')".toList
    (Validation.of {} ⟨text⟩ (Analysis.ofText text)).rejections = [.dangerous ["Function()"]] ∧
      (Analysis.ofText text).security.hasDynamicCode = false ∧
      (Analysis.ofText text).security.risk = .low := by
  decide +kernel

end Validation

end ComponentPreview
