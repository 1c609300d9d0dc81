import Picoclaw.Go.Strings

/-!
# The content filter (`pkg/safety`, `Filter`)

A filter has a level and the user's birth year. `CheckContent` lowers the content and blocks
it when it contains a keyword of the lists its level checks: `"low"` checks the adult
keywords, `"medium"` and `"high"` also the medium ones, and `"high"` for a user under 13 also
the teen-only topics. `CheckResponse` wraps `CheckContent` and flags sensitive or ambiguous
responses for review.

`strings.ToLower` is a parameter `toLower` and the current year (`time.Now().Year()`) an input;
every law holds for every lowering and every year.

**The laws.**
- `checkContent_blocked_iff`: when `CheckContent` blocks, level by level.
- `checkContent_of_unlisted_level`: a level other than the three listed ones never blocks,
  although `shouldBlock` holds for every level but `"off"`: `NewFilter("strict", y)` passes
  what `NewFilter("low", y)` blocks (`strict_level_blocks_nothing`).
- `listed_levels_never_weaker`: each of `"low"`, `"medium"`, `"high"` blocks whatever `"low"`
  blocks, and `"high"` whatever `"medium"` blocks.
- `checkResponse_blocked`: `CheckResponse` blocks exactly what `CheckContent` blocks.
- `generateContextPrompt_eq_empty_iff`, `getSystemPrompt_eq_empty_iff`: the prompts are empty
  exactly for a filter that is off and has no positive birth year; and the context prompt asks
  to involve a parent exactly when `RequiresApproval` holds (`guardianLine_mem_contextParts`).

Each `time.Now()` a call reads is taken in the one year `currentYear`.
-/

namespace Picoclaw.Safety

open Picoclaw.Go

def levelOff : String := "off"
def levelLow : String := "low"
def levelMedium : String := "medium"
def levelHigh : String := "high"

theorem levelOff_ne : levelOff ≠ levelLow ∧ levelOff ≠ levelMedium ∧ levelOff ≠ levelHigh := by
  decide

/-- `adultKeywords`. -/
def adultKeywords : List String :=
  ["violence", "weapons", "drugs", "alcohol", "tobacco", "gambling", "hate", "discrimination",
    "self-harm", "explicit", "pornography", "sexual"]

/-- `mediumBlockKeywords`. -/
def mediumBlockKeywords : List String :=
  ["suicide", "murder", "kill", "attack", "bomb", "hack", "steal", "fraud", "scam"]

/-- `teenOnlyTopics` in `CheckContent`. -/
def teenOnlyTopics : List String := ["dating", "romance", "sex", "politics", "religion"]

/-- `sensitiveTopics` in `CheckResponse`. -/
def sensitiveTopics : List String :=
  ["dating", "romance", "sex", "politics", "religion", "death", "grief"]

/-- `ambiguousPhrases` in `needsLLMCheck`. -/
def ambiguousPhrases : List String :=
  ["in my opinion", "some people believe", "it depends", "you should ask", "talk to your parents",
    "consult an adult"]

/-- Whether a loop over `keywords` finds one that the lowered content contains. -/
def mentionsAny (contentLower : String) (keywords : List String) : Bool :=
  keywords.any (contains contentLower)

/-- `safety.Filter`. -/
structure Filter where
  level : String
  birthYear : Int

/-- `NewFilter`: an empty level is `"off"`. -/
def newFilter (level : String) (birthYear : Int) : Filter :=
  { level := if level = "" then levelOff else level, birthYear := birthYear }

namespace Filter

/-- `isYoungUser` in year `currentYear`: a known birth year, under 13. -/
def isYoungUser (f : Filter) (currentYear : Int) : Bool :=
  f.birthYear ≠ 0 && currentYear - f.birthYear < 13

/-- `isTeenUser` in year `currentYear`: a known birth year, 13 to 17. -/
def isTeenUser (f : Filter) (currentYear : Int) : Bool :=
  f.birthYear ≠ 0 && 13 ≤ currentYear - f.birthYear && currentYear - f.birthYear < 18

/-- `shouldBlock`. -/
def shouldBlock (f : Filter) : Bool := f.level ≠ levelOff

/-- `CheckContent`: whether the content is blocked, and why. -/
def checkContent (toLower : String → String) (currentYear : Int) (f : Filter) (content : String) :
    Bool × String :=
  if !f.shouldBlock then (false, "")
  else
    let contentLower := toLower content
    if f.level = levelLow ∧ mentionsAny contentLower adultKeywords then
      (true, "content blocked by safety filter (low)")
    else if (f.level = levelMedium ∨ f.level = levelHigh) ∧
        (mentionsAny contentLower adultKeywords || mentionsAny contentLower mediumBlockKeywords) then
      (true, "content blocked by safety filter (medium/high)")
    else if f.level = levelHigh ∧ f.isYoungUser currentYear ∧
        mentionsAny contentLower teenOnlyTopics then
      (true, "content requires parent approval (high safety for young user)")
    else (false, "")

/-- `RequiresApproval`. -/
def requiresApproval (f : Filter) (currentYear : Int) : Bool :=
  f.level = levelHigh && f.isYoungUser currentYear

end Filter

/-- `CheckResult`. -/
structure CheckResult where
  safe : Bool := false
  blocked : Bool := false
  rewrite : Bool := false
  needsApproval : Bool := false
  reason : String := ""
  original : String := ""
  rewritten : String := ""
  blockedMessage : String := ""
  deriving DecidableEq, Repr

namespace Filter

/-- `needsLLMCheck`. -/
def needsLLMCheck (toLower : String → String) (response : String) : Bool :=
  mentionsAny (toLower response) ambiguousPhrases

/-- `getBlockedMessage`; the reason is not read. -/
def getBlockedMessage (f : Filter) (currentYear : Int) : String :=
  if f.isYoungUser currentYear then
    "I can't share that information with you. Ask a parent or guardian if you'd like to know more about this topic."
  else "This content has been filtered for safety. Please try a different topic."

/-- `CheckResponse`. -/
def checkResponse (toLower : String → String) (currentYear : Int) (f : Filter) (response : String) :
    CheckResult :=
  let result : CheckResult := { original := response, safe := true }
  if f.level = levelOff then result
  else
    let (blocked, reason) := f.checkContent toLower currentYear response
    if blocked then
      { result with safe := false, blocked := true, reason := reason,
                    blockedMessage := f.getBlockedMessage currentYear }
    else if f.level = levelHigh ∧ f.isYoungUser currentYear ∧
        mentionsAny (toLower response) sensitiveTopics then
      { result with safe := true, needsApproval := true,
                    reason := "Sensitive topic for young user - parent review recommended" }
    else if (f.level = levelMedium ∨ f.level = levelHigh) ∧ needsLLMCheck toLower response then
      { result with needsApproval := true,
                    reason := "Content may need review - using LLM safety check recommended" }
    else result

variable (toLower : String → String) (currentYear : Int) (f : Filter) (content : String)

/-- **When `CheckContent` blocks**, level by level: `"low"` on an adult keyword; `"medium"`
and `"high"` on an adult or a medium keyword; `"high"` also on a teen-only topic for a young
user; any other level never. -/
theorem checkContent_blocked_iff :
    (f.checkContent toLower currentYear content).1 = true ↔
      (f.level = levelLow ∧ mentionsAny (toLower content) adultKeywords = true) ∨
      ((f.level = levelMedium ∨ f.level = levelHigh) ∧
        (mentionsAny (toLower content) adultKeywords = true ∨
          mentionsAny (toLower content) mediumBlockKeywords = true)) ∨
      (f.level = levelHigh ∧ f.isYoungUser currentYear = true ∧
        mentionsAny (toLower content) teenOnlyTopics = true) := by
  unfold checkContent shouldBlock
  by_cases hoff : f.level = levelOff
  · simp [hoff, levelOff_ne.1, levelOff_ne.2.1, levelOff_ne.2.2]
  · rw [if_neg (by simp [hoff])]
    dsimp only
    split_ifs <;> simp_all

/-- A level other than `"low"`, `"medium"` and `"high"` never blocks. -/
theorem checkContent_of_unlisted_level (h : f.level ≠ levelLow ∧ f.level ≠ levelMedium ∧
    f.level ≠ levelHigh) : (f.checkContent toLower currentYear content).1 = false := by
  rw [← Bool.not_eq_true, checkContent_blocked_iff]
  simp [h.1, h.2.1, h.2.2]

/-- **`CheckResponse` blocks exactly what `CheckContent` blocks.** -/
theorem checkResponse_blocked :
    (f.checkResponse toLower currentYear content).blocked =
      (f.checkContent toLower currentYear content).1 := by
  unfold checkResponse
  by_cases hoff : f.level = levelOff
  · rw [if_pos hoff, checkContent_of_unlisted_level toLower currentYear f content (hoff ▸ levelOff_ne)]
  · rw [if_neg hoff]
    rcases f.checkContent toLower currentYear content with ⟨_ | _, reason⟩
    · simp only [Bool.false_eq_true, if_false]
      split_ifs <;> rfl
    · rfl

end Filter

/-- **The listed levels are never weaker than `"low"`, and `"high"` never weaker than
`"medium"`**, for every birth year, current year and content. -/
theorem listed_levels_never_weaker (toLower : String → String) (currentYear birthYear : Int)
    (content : String) (level : String)
    (hlevel : level = levelLow ∨ level = levelMedium ∨ level = levelHigh) :
    (((newFilter levelLow birthYear).checkContent toLower currentYear content).1 = true →
      ((newFilter level birthYear).checkContent toLower currentYear content).1 = true) ∧
    (((newFilter levelMedium birthYear).checkContent toLower currentYear content).1 = true →
      ((newFilter levelHigh birthYear).checkContent toLower currentYear content).1 = true) := by
  have hnew : ∀ l, l ≠ "" → (newFilter l birthYear).level = l := fun l hl => if_neg hl
  simp only [Filter.checkContent_blocked_iff, hnew levelLow (by decide),
    hnew levelMedium (by decide), hnew levelHigh (by decide)]
  refine ⟨fun h => ?_, fun h => ?_⟩
  · rcases hlevel with rfl | rfl | rfl <;> simp_all [hnew, levelLow, levelMedium, levelHigh]
  · simp_all [levelLow, levelMedium, levelHigh]

/-- `"medium"` blocks what `"low"` blocks, here a mention of violence. -/
theorem medium_blocks_what_low_blocks :
    (levelMedium = levelLow ∨ levelMedium = levelMedium ∨ levelMedium = levelHigh) ∧
      (((newFilter levelLow 1980).checkContent id 2026 "violence").1 = true →
        ((newFilter levelMedium 1980).checkContent id 2026 "violence").1 = true) :=
  ⟨.inr (.inl rfl), (listed_levels_never_weaker id 2026 1980 "violence" levelMedium (.inr (.inl rfl))).1⟩

/-- `"strict"` enables the filter but blocks nothing, while `"low"` blocks violence. -/
theorem strict_level_blocks_nothing :
    (newFilter "strict" 1980).shouldBlock = true ∧
      ((newFilter levelLow 1980).checkContent id 2026 "violence").1 = true ∧
      ((newFilter "strict" 1980).checkContent id 2026 "violence").1 = false := by
  decide

/-! ## The prompts

`GenerateContextPrompt` and `GetSystemPrompt` tell the model about the user and the level: a
line with the birth year and the age when the birth year is positive, an age-group line, and
the level's lines when the filter is on, joined with newlines under a heading, or `""` when
there is no line. -/

namespace Filter

/-- The line `GenerateContextPrompt` adds for `"high"` and a young user. -/
def guardianLine : String :=
  "Apply strict filtering. For sensitive topics, suggest involving a parent or guardian."

/-- `fmt.Sprintf("The user was born in %d (approximately %d years old).", ...)`. -/
def bornLine (f : Filter) (currentYear : Int) : String :=
  "The user was born in " ++ formatInt f.birthYear ++ " (approximately " ++
    formatInt (currentYear - f.birthYear) ++ " years old)."

/-- The `parts` of `GenerateContextPrompt` in year `currentYear`. -/
def contextParts (f : Filter) (currentYear : Int) : List String :=
  (if f.birthYear > 0 then
    f.bornLine currentYear ::
      (if f.isYoungUser currentYear then
        ["Use simple vocabulary and age-appropriate examples. Avoid mature topics."]
      else if f.isTeenUser currentYear then
        ["Adjust communication style for a teenager. Be helpful but appropriate."]
      else [])
  else []) ++
  (if f.level ≠ levelOff then
    ("Safety level: " ++ f.level) ::
      (if f.level = levelLow then
        ["Apply light content filtering. Block obviously harmful content."]
      else if f.level = levelMedium then
        ["Apply moderate content filtering. Redirect inappropriate topics appropriately."]
      else if f.level = levelHigh then
        if f.isYoungUser currentYear then [guardianLine] else ["Apply strict content filtering."]
      else [])
  else [])

/-- `GenerateContextPrompt`. -/
def generateContextPrompt (f : Filter) (currentYear : Int) : String :=
  let parts := f.contextParts currentYear
  if parts.length = 0 then "" else "\n# User Context\n" ++ "\n".intercalate parts

/-- The `parts` of `GetSystemPrompt` in year `currentYear`. -/
def systemParts (f : Filter) (currentYear : Int) : List String :=
  (if f.birthYear > 0 then
    f.bornLine currentYear ::
      (if f.isYoungUser currentYear then
        ["IMPORTANT: This is a young child. Use simple vocabulary, short sentences, and age-appropriate examples."]
      else if f.isTeenUser currentYear then
        ["IMPORTANT: This is a teenager. Be helpful but mindful of age-appropriate content."]
      else [])
  else []) ++
  (if f.level ≠ levelOff then ["Safety filter level: " ++ f.level] else [])

/-- `GetSystemPrompt`. -/
def getSystemPrompt (f : Filter) (currentYear : Int) : String :=
  let parts := f.systemParts currentYear
  if parts.length > 0 then "## Safety Context\n" ++ "\n".intercalate parts else ""

/-- Two runs of lines, each there only under its condition, are both absent exactly when
neither condition holds. -/
theorem ite_cons_append_eq_nil {p q : Prop} [Decidable p] [Decidable q] {a b : String}
    {as bs : List String} :
    (if p then a :: as else []) ++ (if q then b :: bs else []) = [] ↔ ¬p ∧ ¬q := by
  split_ifs <;> simp_all

/-- **The context prompt is empty exactly for a filter that is off, without a birth year.** -/
theorem generateContextPrompt_eq_empty_iff (f : Filter) (currentYear : Int) :
    f.generateContextPrompt currentYear = "" ↔ f.birthYear ≤ 0 ∧ f.level = levelOff := by
  have hparts : f.contextParts currentYear = [] ↔ f.birthYear ≤ 0 ∧ f.level = levelOff := by
    rw [contextParts, ite_cons_append_eq_nil, Int.not_lt, ne_eq, not_not]
  have hhead : ∀ x : String, "\n# User Context\n" ++ x ≠ "" := fun x h => by
    simpa using congrArg String.data h
  unfold generateContextPrompt
  dsimp only
  rw [← hparts]
  split_ifs with h
  · exact ⟨fun _ => List.length_eq_zero.mp h, fun _ => rfl⟩
  · exact ⟨fun e => absurd e (hhead _), fun e => absurd (List.length_eq_zero.mpr e) h⟩

/-- **The system prompt is empty exactly for a filter that is off, without a birth year.** -/
theorem getSystemPrompt_eq_empty_iff (f : Filter) (currentYear : Int) :
    f.getSystemPrompt currentYear = "" ↔ f.birthYear ≤ 0 ∧ f.level = levelOff := by
  have hparts : f.systemParts currentYear = [] ↔ f.birthYear ≤ 0 ∧ f.level = levelOff := by
    rw [systemParts, ite_cons_append_eq_nil, Int.not_lt, ne_eq, not_not]
  have hhead : ∀ x : String, "## Safety Context\n" ++ x ≠ "" := fun x h => by
    simpa using congrArg String.data h
  unfold getSystemPrompt
  dsimp only
  rw [← hparts]
  split_ifs with h
  · exact ⟨fun e => absurd e (hhead _), fun e => by simp [e] at h⟩
  · exact ⟨fun _ => List.length_eq_zero.mp (by omega), fun _ => rfl⟩

/-- The strict line for a young user is the filter's approval rule. -/
theorem guardianLine_mem_contextParts (f : Filter) (currentYear : Int) :
    guardianLine ∈ f.contextParts currentYear ↔ f.requiresApproval currentYear = true := by
  have hhead : ∀ a : String, a.data.head? ≠ some 'A' → guardianLine ≠ a := fun a ha h =>
    ha (h ▸ rfl)
  have hborn : guardianLine ≠ f.bornLine currentYear := hhead _ (by
    simp only [bornLine, String.data_append, List.append_assoc]
    exact fun h => by cases h)
  have hlevel : guardianLine ≠ "Safety level: " ++ f.level := hhead _ (by
    simp only [String.data_append]
    exact fun h => by cases h)
  unfold requiresApproval contextParts
  unfold guardianLine at hborn hlevel ⊢
  split_ifs <;> simp_all [levelOff, levelLow, levelMedium, levelHigh]

end Filter

end Picoclaw.Safety
