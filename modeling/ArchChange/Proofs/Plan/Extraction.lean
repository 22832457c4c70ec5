import ArchChange.Plan.Extraction
import ArchChange.Proofs.Json.Reading
import ArchChange.Proofs.Text.Cutting
import ArchChange.Proofs.Text.Utf8
import Mathlib
/-!
Plans are found in all that they may be wrapped in. No cut at the ends of a text gets past the
braces of a plan, and no search for a brace stops before it, so whatever surrounds a plan, it is
read from its own text.
-/
namespace ArchChange.Plan

open Text

section

variable {pre inner post : List Char}

theorem trimEnd_braces (pre inner post : List Char) :
    trimEnd (pre ++ '{' :: (inner ++ '}' :: post)) =
      pre ++ '{' :: (inner ++ '}' :: trimEnd post) := by
  have h := trimEnd_append_cons (c := '}') (by decide) (pre ++ '{' :: inner) post
  simpa using h

theorem trim_braces (pre inner post : List Char) :
    trim (pre ++ '{' :: (inner ++ '}' :: post)) =
      trimStart pre ++ '{' :: (inner ++ '}' :: trimEnd post) := by
  rw [trim, trimStart_append_cons (by decide), trimEnd_braces]

/-- A closing fence stands behind the closing brace. -/
theorem exists_dropTail?_fence (pre inner post : List Char) : ∃ rest,
    (dropTail? fence (pre ++ '{' :: (inner ++ '}' :: post))).getD
      (pre ++ '{' :: (inner ++ '}' :: post)) = pre ++ '{' :: (inner ++ '}' :: rest) := by
  have hfence : '}' ∉ fence := by decide
  have h := dropTail?_append_cons hfence (pre ++ '{' :: inner) post
  simp only [List.append_assoc, List.cons_append] at h
  rw [h]
  cases dropTail? fence post with
  | none => exact ⟨post, rfl⟩
  | some rest => exact ⟨rest, rfl⟩

/-- What a fenced block is cut down to still holds all between the braces, and no other brace
before. -/
theorem exists_unfence (hbrace : '{' ∉ pre)
    (hfence : fence <+: trim (pre ++ '{' :: (inner ++ '}' :: post)) →
      ∃ line body, trimStart pre = fence ++ (line ++ '\n' :: body)) :
    ∃ lead rest, unfence (pre ++ '{' :: (inner ++ '}' :: post)) =
      lead ++ '{' :: (inner ++ '}' :: rest) ∧ '{' ∉ lead := by
  rw [trim_braces] at hfence
  unfold unfence
  rw [trim_braces]
  dsimp only
  cases hlead : dropLead? fence (trimStart pre ++ '{' :: (inner ++ '}' :: trimEnd post)) with
  | none => exact ⟨_, _, rfl, fun h => hbrace (mem_of_mem_trimStart h)⟩
  | some block =>
    obtain ⟨line, body, hpre⟩ := hfence ⟨block, (eq_append_of_dropLead? hlead).symm⟩
    have hblock : block = line ++ '\n' :: body ++ '{' :: (inner ++ '}' :: trimEnd post) := by
      rw [hpre, List.append_assoc, dropLead?_append] at hlead
      exact (Option.some.inj hlead).symm
    obtain ⟨lead, hafter, hmem⟩ := after?_append (c := '\n') (s := line ++ '\n' :: body)
      (by simp) ('{' :: (inner ++ '}' :: trimEnd post))
    obtain ⟨rest, hrest⟩ := exists_dropTail?_fence lead inner (trimEnd (trimEnd post))
    simp only [hblock, hafter, Option.getD_some, trimEnd_braces, hrest, trim_braces]
    refine ⟨_, _, rfl, fun h => hbrace (mem_of_mem_trimStart ?_)⟩
    rw [hpre]
    exact List.mem_append_right _ (hmem _ (mem_of_mem_trimStart h))

theorem firstEmbedded?_append {lead : List Char} (h : '{' ∉ lead) (s : List Char) :
    firstEmbedded? (lead ++ s) = firstEmbedded? s := by
  induction lead with
  | nil => rfl
  | cons c lead ih =>
    obtain ⟨hc, hlead⟩ := not_or.mp (mt List.mem_cons.mpr h)
    rw [List.cons_append, firstEmbedded?, if_neg (Ne.symm hc), ih hlead]

end

section

variable {s : List Char} {fields : List (String × Json)}

theorem isBlankChar_of_isSpace {c : Char} (h : Document.isSpace c = true) :
    isBlankChar c = true := by
  simp only [Document.isSpace, Bool.or_eq_true, beq_iff_eq] at h
  rcases h with ((rfl | rfl) | rfl) | rfl <;> decide

theorem all_isBlankChar {s : List Char} (h : s.all Document.isSpace = true) :
    s.all isBlankChar = true :=
  List.all_eq_true.mpr fun c hc => isBlankChar_of_isSpace (List.all_eq_true.mp h c hc)

theorem not_mem_of_all_isSpace {s : List Char} (h : s.all Document.isSpace = true) : '{' ∉ s := by
  intro hmem
  exact absurd (List.all_eq_true.mp h _ hmem) (by decide)

/-- Trimming takes no more than the blanks of JSON from the text of an object. -/
theorem ofText?_trim (h : Json.ofText? s = some (.obj fields)) :
    Json.ofText? (trim s) = some (.obj fields) := by
  obtain ⟨before, text, after, hbefore, hafter, rfl, htext⟩ := Json.exists_objectText h
  obtain ⟨inner, rfl⟩ := htext.braces
  have hs : before ++ ('{' :: (inner ++ ['}']) ++ after) =
      before ++ '{' :: (inner ++ '}' :: after) := by simp
  rw [hs, trim_braces, (trimStart_eq_nil_iff before).mpr (all_isBlankChar hbefore),
    (trimEnd_eq_nil_iff after).mpr (all_isBlankChar hafter)]
  exact htext.ofText?

/-- The object is the first value found in the text, whatever surrounds its own text. -/
theorem firstEmbedded?_unfence {pre post : List Char} (h : Json.ofText? s = some (.obj fields))
    (hbrace : '{' ∉ pre) (hfence : fence <+: trim (pre ++ s ++ post) →
      ∃ line body, trimStart pre = fence ++ (line ++ '\n' :: body)) :
    firstEmbedded? (unfence (pre ++ s ++ post)) = some (.obj fields) := by
  obtain ⟨before, text, after, hbefore, -, rfl, htext⟩ := Json.exists_objectText h
  obtain ⟨inner, rfl⟩ := htext.braces
  have hs : pre ++ (before ++ ('{' :: (inner ++ ['}']) ++ after)) ++ post =
      pre ++ before ++ '{' :: (inner ++ '}' :: (after ++ post)) := by simp
  rw [hs] at hfence ⊢
  have hline : fence <+: trim (pre ++ before ++ '{' :: (inner ++ '}' :: (after ++ post))) →
      ∃ line body, trimStart (pre ++ before) = fence ++ (line ++ '\n' :: body) := by
    intro hstart
    obtain ⟨line, body, hpre⟩ := hfence hstart
    refine ⟨line, body ++ before, ?_⟩
    rw [trimStart_append (by simp [hpre, fence]), hpre]
    simp
  have hbraces : '{' ∉ pre ++ before := by
    simp [hbrace, not_mem_of_all_isSpace hbefore]
  obtain ⟨lead, rest, hcut, hlead⟩ := exists_unfence hbraces hline
  have hread := htext.firstOfText? rest
  simp only [List.cons_append, List.append_assoc, List.nil_append] at hread
  rw [hcut, firstEmbedded?_append hlead, firstEmbedded?, if_pos rfl, hread]
  rfl

end

/-! The routes to a plan. -/

/-- The text around a plan does not hide it: no brace stands before the plan, and if the whole
starts with a fence, the line of the fence ends before the plan. -/
structure Surrounds (pre plan post : String) : Prop where
  no_brace : '{' ∉ pre.toList
  fence_line : fence <+: trim (pre ++ plan ++ post).toList →
    ∃ line body, trimStart pre.toList = fence ++ (line ++ '\n' :: body)

variable {s t pre post : String} {fields envelope : List (String × Json)}

theorem Surrounds.firstEmbedded?_unfence (h : Surrounds pre s post)
    (hs : Json.ofText? s.toList = some (.obj fields)) :
    firstEmbedded? (unfence (pre ++ s ++ post).toList) = some (.obj fields) := by
  have hfence := h.fence_line
  rw [String.toList_append, String.toList_append] at hfence ⊢
  exact Plan.firstEmbedded?_unfence hs h.no_brace hfence

/-- An answer that is an object is taken as one. -/
theorem extract_encode (ht : Json.ofText? t.toList = some (.obj envelope)) :
    extract (encode t) = extractValue (.obj envelope) := by
  rw [extract, decodeLossy_encode, extractText, ofText?_trim ht]

theorem extract_bare (hs : Json.ofText? s.toList = some (.obj fields))
    (hstructured : (Json.obj fields).get? "structured_output" = none)
    (hresult : ((Json.obj fields).get? "result").bind Json.text? = none) :
    extract (encode s) = .ok ⟨.obj fields, .bare⟩ := by
  rw [extract_encode hs, extractValue, hstructured, hresult]
  rfl

theorem extract_structuredOutput (ht : Json.ofText? t.toList = some (.obj envelope))
    (hstructured : (Json.obj envelope).get? "structured_output" = some (.obj fields)) :
    extract (encode t) = .ok ⟨.obj fields, .structuredOutput⟩ := by
  rw [extract_encode ht, extractValue, hstructured]
  rfl

/-- What a result text as a whole is read as has to be the plan, and otherwise the plan is found
in it. -/
theorem extractResult_of_surrounds (h : Surrounds pre s post)
    (hs : Json.ofText? s.toList = some (.obj fields))
    (hwhole : ∀ v, Json.ofText? (unfence (pre ++ s ++ post).toList) = some v → v = .obj fields) :
    extractResult (pre ++ s ++ post) = .ok ⟨.obj fields, .resultText⟩ := by
  have hfound := h.firstEmbedded?_unfence hs
  unfold extractResult
  cases hread : Json.ofText? (unfence (pre ++ s ++ post).toList) with
  | none =>
    simp only [hread, hfound]
    rfl
  | some v =>
    obtain rfl := hwhole v hread
    simp only [hread]
    rfl

theorem extract_result (h : Surrounds pre s post)
    (hs : Json.ofText? s.toList = some (.obj fields))
    (ht : Json.ofText? t.toList = some (.obj envelope))
    (hstructured : (Json.obj envelope).get? "structured_output" = none)
    (hresult : (Json.obj envelope).get? "result" = some (.str (pre ++ s ++ post)))
    (hwhole : ∀ v, Json.ofText? (unfence (pre ++ s ++ post).toList) = some v → v = .obj fields) :
    extract (encode t) = .ok ⟨.obj fields, .resultText⟩ := by
  rw [extract_encode ht, extractValue, hstructured, hresult]
  exact extractResult_of_surrounds h hs hwhole

/-- Prose is searched for the plan. -/
theorem extract_prose (h : Surrounds pre s post)
    (hs : Json.ofText? s.toList = some (.obj fields))
    (hprose : Json.ofText? (trim (pre ++ s ++ post).toList) = none) :
    extract (encode (pre ++ s ++ post)) = .ok ⟨.obj fields, .resultText⟩ := by
  rw [extract, decodeLossy_encode, extractText, hprose, h.firstEmbedded?_unfence hs]
  rfl

/-! What comes of any answer. -/

/-- An object from some source, or a reason other than that the value is an object. -/
def Settled (result : Except NoPlan Extracted) : Prop :=
  (∃ fields source, result = .ok ⟨.obj fields, source⟩) ∨
    ∃ reason, result = .error reason ∧ reason ≠ .notAnObject .object

theorem settled_requireObject (value : Json) (source : Source) :
    Settled (requireObject value source) := by
  cases value with
  | obj fields => exact Or.inl ⟨fields, source, rfl⟩
  | _ => exact Or.inr ⟨_, rfl, by simp [Json.kind]⟩

theorem settled_extractResult (result : String) : Settled (extractResult result) := by
  unfold extractResult
  dsimp only
  split
  · exact settled_requireObject _ _
  · exact Or.inr ⟨_, rfl, by simp⟩

theorem settled_extractText (response : List Char) : Settled (extractText response) := by
  unfold extractText
  split
  · unfold extractValue
    split
    · exact settled_requireObject _ _
    · split
      · exact settled_extractResult _
      · exact settled_requireObject _ _
  · split
    · exact settled_requireObject _ _
    · exact Or.inr ⟨_, rfl, by simp⟩

theorem NoPlan.message_ne_empty (reason : NoPlan) : reason.message ≠ "" := by
  cases reason with
  | notAnObject found => cases found <;> decide
  | _ => decide

/-- Every wrapping gives the plan back, and nothing but an object is ever taken for a plan. -/
theorem extract_recovers (hs : Json.ofText? s.toList = some (.obj fields)) :
    ((Json.obj fields).get? "structured_output" = none →
      ((Json.obj fields).get? "result").bind Json.text? = none →
      extract (encode s) = .ok ⟨.obj fields, .bare⟩) ∧
    (∀ t envelope, Json.ofText? t.toList = some (.obj envelope) →
      (Json.obj envelope).get? "structured_output" = some (.obj fields) →
      extract (encode t) = .ok ⟨.obj fields, .structuredOutput⟩) ∧
    (∀ pre post, Surrounds pre s post →
      (∀ t envelope, Json.ofText? t.toList = some (.obj envelope) →
        (Json.obj envelope).get? "structured_output" = none →
        (Json.obj envelope).get? "result" = some (.str (pre ++ s ++ post)) →
        (∀ v, Json.ofText? (unfence (pre ++ s ++ post).toList) = some v → v = .obj fields) →
        extract (encode t) = .ok ⟨.obj fields, .resultText⟩) ∧
      (Json.ofText? (trim (pre ++ s ++ post).toList) = none →
        extract (encode (pre ++ s ++ post)) = .ok ⟨.obj fields, .resultText⟩)) ∧
    ∀ bytes, (∃ fields source, extract bytes = .ok ⟨.obj fields, source⟩) ∨
      ∃ reason, extract bytes = .error reason ∧ reason ≠ .notAnObject .object ∧
        reason.message ≠ "" := by
  refine ⟨extract_bare hs, fun t envelope => extract_structuredOutput, fun pre post h =>
    ⟨fun t envelope => extract_result h hs, extract_prose h hs⟩, fun bytes => ?_⟩
  rcases settled_extractText (decodeLossy bytes) with hok | ⟨reason, herror, hreason⟩
  · exact Or.inl hok
  · exact Or.inr ⟨reason, herror, hreason, reason.message_ne_empty⟩

/-- A plan by itself, as structured output, in a fenced block of a result text and in prose. -/
theorem extract_recovers_sample :
    let plan := "\x7b\"a\":1\x7d"
    let fields := [("a", Json.num (.int 1))]
    let structured := "\x7b\"structured_output\":" ++ plan ++ "\x7d"
    let fenced := "\x60\x60\x60json\n" ++ plan ++ "\n\x60\x60\x60"
    let result := "\x7b\"result\":\"\x60\x60\x60json\\n\x7b\\\"a\\\":1\x7d\\n\x60\x60\x60\"\x7d"
    Json.ofText? plan.toList = some (.obj fields) ∧
      Json.ofText? result.toList = some (.obj [("result", .str fenced)]) ∧
      extract (encode plan) = .ok ⟨.obj fields, .bare⟩ ∧
      extract (encode structured) = .ok ⟨.obj fields, .structuredOutput⟩ ∧
      extract (encode result) = .ok ⟨.obj fields, .resultText⟩ ∧
      extract (encode ("Plan: " ++ plan ++ " Done.")) =
        .ok ⟨.obj fields, .resultText⟩ := by
  intro plan fields structured fenced result
  have hplan : Json.ofText? plan.toList = some (.obj fields) := by cbv
  have hresult : Json.ofText? result.toList = some (.obj [("result", .str fenced)]) := by cbv
  have hstructured : Json.ofText? structured.toList =
      some (.obj [("structured_output", .obj fields)]) := by cbv
  have hfenced : Json.ofText? (unfence fenced.toList) = some (.obj fields) := by cbv
  have hprose : Json.ofText? (trim ("Plan: " ++ plan ++ " Done.").toList) = none := by
    cbv
  obtain ⟨hbare, hnested, hwrapped, -⟩ := extract_recovers hplan
  have hblock : Surrounds "\x60\x60\x60json\n" plan "\n\x60\x60\x60" :=
    ⟨by decide, fun _ => ⟨"json".toList, [], by decide⟩⟩
  have hsentence : Surrounds "Plan: " plan " Done." :=
    ⟨by decide, fun h => absurd h (by decide)⟩
  refine ⟨hplan, hresult, hbare rfl rfl, hnested _ _ hstructured rfl,
    (hwrapped _ _ hblock).1 _ _ hresult rfl rfl fun v hv => ?_, (hwrapped _ _ hsentence).2 hprose⟩
  exact Option.some.inj (hv.symm.trans hfenced)

/-- A blank that is none of JSON is trimmed off an answer before it is read. So an answer that is
no JSON text because of such a blank is taken for the plan itself, and not for prose around it. -/
theorem extract_trims_answer :
    let plan := "\x7b\"a\":1\x7d"
    let answer := "\u00a0" ++ plan ++ ""
    Json.ofText? plan.toList = some (.obj [("a", .num (.int 1))]) ∧ Surrounds "\u00a0" plan "" ∧
      Json.ofText? answer.toList = none ∧
      extract (encode answer) = .ok ⟨.obj [("a", .num (.int 1))], .bare⟩ ∧
      extract (encode answer) ≠ .ok ⟨.obj [("a", .num (.int 1))], .resultText⟩ := by
  intro plan answer
  have hplan : Json.ofText? plan.toList = some (.obj [("a", .num (.int 1))]) := by cbv
  have htrim : trim answer.toList = plan.toList := by decide
  have hbare : extract (encode answer) = .ok ⟨.obj [("a", .num (.int 1))], .bare⟩ := by
    rw [extract, decodeLossy_encode, extractText, htrim, hplan]
    rfl
  refine ⟨hplan, ⟨by decide, fun h => absurd h (by decide)⟩, by cbv, hbare, ?_⟩
  rw [hbare]
  simp

end ArchChange.Plan
