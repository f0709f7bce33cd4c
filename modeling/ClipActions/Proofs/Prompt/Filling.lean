import ClipActions.Action.Builtin
import ClipActions.Proofs.Model.Generation
import ClipActions.Proofs.Text.Replacing

/-!
The prompts of the built-in operations. What stands in the place of the text is never searched, but
what stands in the place of the language is: a language that holds the place of the text is told
what the text is.
-/
namespace ClipActions

namespace Template

variable {t : Text}

/-- A user prompt with both places filled at once; what is put in is not searched. -/
def fill (text language : Text) : Text → Text
  | [] => []
  | s :: rest =>
    match _ : Text.dropLead? languageMark (s :: rest) with
    | some after => language ++ fill text language after
    | none =>
      match _ : Text.dropLead? textMark (s :: rest) with
      | some after => text ++ fill text language after
      | none => s :: fill text language rest

termination_by t => t.length

decreasing_by
  · have := Text.length_of_dropLead? ‹Text.dropLead? languageMark _ = some after›
    have : languageMark.length = 10 := rfl
    simp only [List.length_cons] at *
    omega
  · have := Text.length_of_dropLead? ‹Text.dropLead? textMark _ = some after›
    have : textMark.length = 9 := rfl
    simp only [List.length_cons] at *
    omega
  · simp

theorem fill_of_language {t rest : Text} (h : Text.dropLead? languageMark t = some rest)
    (text language : Text) : fill text language t = language ++ fill text language rest := by
  cases t with
  | nil => cases h
  | cons s t =>
    rw [fill]
    split
    · rename_i after heq
      rw [h] at heq
      cases heq
      rfl
    · rename_i heq
      rw [h] at heq
      cases heq

theorem fill_of_text {t rest : Text} (hn : Text.dropLead? languageMark t = none)
    (h : Text.dropLead? textMark t = some rest) (text language : Text) :
    fill text language t = text ++ fill text language rest := by
  cases t with
  | nil => cases h
  | cons s t =>
    rw [fill]
    split
    · rename_i after heq
      rw [hn] at heq
      cases heq
    · split
      · rename_i after heq
        rw [h] at heq
        cases heq
        rfl
      · rename_i heq
        rw [h] at heq
        cases heq

/-- Both places begin with a brace, so nothing else is touched. -/
theorem fill_append (ht : .char '\x7b' ∉ t) (text language u : Text) :
    fill text language (t ++ u) = t ++ fill text language u := by
  induction t with
  | nil => rfl
  | cons s t ih =>
    obtain ⟨hs, ht⟩ := not_or.1 (mt List.mem_cons.2 ht)
    have hplace : ∀ mark : Text, mark.head? = some (.char '\x7b') →
        Text.dropLead? mark (s :: (t ++ u)) = none := by
      intro mark hm
      have hnot := Text.not_prefix_of_head (t := t ++ u) hm hs
      rwa [← Text.startsWith_iff, Text.startsWith, Option.not_isSome_iff_eq_none] at hnot
    rw [List.cons_append, fill]
    split
    · rename_i after heq
      rw [hplace _ rfl] at heq
      cases heq
    · split
      · rename_i after heq
        rw [hplace _ rfl] at heq
        cases heq
      · rw [ih ht, List.cons_append]

end Template

namespace Operation

open Template

/-- What the user prompt of an operation begins with. -/
def lead : Operation → Text
  | summarize => "Summarize the following text concisely:\n\n"
  | explain => "Explain the following:\n\n"
  | translate => "Translate the following to "
  | improve => "Improve the following writing for clarity and style:\n\n"
  | extract => "Extract structured data from the following text. Output as JSON if applicable:\n\n"
  | tldr => "Give a very brief TL;DR (1-2 sentences max) of this:\n\n"
  | classify => "Classify this content:\n\n"

/-- The lead, the language if the operation is `translate`, and the text. -/
def prompt (operation : Operation) (text language : Text) : Text :=
  match operation with
  | translate => lead translate ++ (language ++ (":\n\n" ++ text))
  | operation => operation.lead ++ text

theorem user_template (operation : Operation) :
    operation.template.user = operation.prompt textMark languageMark := by
  cases operation <;> decide +kernel

theorem brace_notMem_lead (operation : Operation) : .char '\x7b' ∉ operation.lead := by
  cases operation <;> decide +kernel

theorem prompt_of_ne {operation : Operation} (ho : operation ≠ translate) (text language : Text) :
    operation.prompt text language = operation.lead ++ text := by
  cases operation with
  | translate => exact absurd rfl ho
  | _ => rfl

/-- With both places filled at once every prompt is as promised. -/
theorem fill_template (operation : Operation) (text language : Text) :
    fill text language operation.template.user = operation.prompt text language := by
  have htext : fill text language textMark = text := by
    have hfound : Text.dropLead? textMark textMark = some [] := by decide
    rw [fill_of_text (by decide) hfound, fill, List.append_nil]
  have hlead := fill_append operation.brace_notMem_lead text language
  rw [user_template]
  cases operation with
  | translate =>
    have hlanguage : ∀ t, Text.dropLead? languageMark (languageMark ++ t) = some t :=
      Text.dropLead?_append languageMark
    rw [prompt, hlead, fill_of_language (hlanguage _), fill_append (by decide), htext, prompt]
  | _ => exact (hlead textMark).trans (congrArg (_ ++ ·) htext)

/-- There is no place of the language in a text where none is seen. -/
theorem replaceAll_language {t : Text} (h : Text.occursIn languageMark t = false) (new : Text) :
    Text.replaceAll languageMark new t = t := by
  refine Text.replaceAll_eq_self (fun hi => ?_) new
  rw [← Text.occursIn_iff, h] at hi
  cases hi

theorem replaceAll_textMark (text t : Text) (ht : .char '\x7b' ∉ t) :
    Text.replaceAll textMark text (t ++ textMark) = t ++ text := by
  have hend := Text.replaceAll_lead (show textMark ≠ [] by decide) text []
  rw [Text.replaceAll, List.append_nil, List.append_nil] at hend
  rw [Text.replaceAll_passes rfl ht, hend]

/-- The text is put in the places that the language holds, too. -/
theorem render_translate (text language : Text) : translate.template.render text language =
    translate.prompt text (Text.replaceAll textMark text language) := by
  have hend : Text.replaceAll textMark text ("\n\n" ++ textMark) = "\n\n" ++ text :=
    replaceAll_textMark text _ (by decide)
  have hsplit : (":\n\n" : Text) ++ textMark = .char ':' :: (("\n\n" : Text) ++ textMark) := rfl
  rw [render, user_template, prompt, Text.replaceAll_passes rfl translate.brace_notMem_lead,
    Text.replaceAll_lead (by decide), replaceAll_language (by decide),
    Text.replaceAll_passes rfl translate.brace_notMem_lead, hsplit,
    Text.replaceAll_append_cons (by decide) (by decide), hend]
  rfl

theorem render_of_ne {operation : Operation} (ho : operation ≠ translate)
    (text language : Text) :
    operation.template.render text language = operation.prompt text language := by
  have huser : Text.replaceAll languageMark language (operation.lead ++ textMark) =
      operation.lead ++ textMark := by
    rw [Text.replaceAll_passes rfl operation.brace_notMem_lead, replaceAll_language (by decide)]
  rw [render, user_template, prompt_of_ne ho, huser,
    replaceAll_textMark text _ operation.brace_notMem_lead, prompt_of_ne ho]

/-- A prompt is as promised unless it is a translation into a language that holds the place of the
text. -/
theorem render_eq_prompt_iff (operation : Operation) (text language : Text) :
    operation.template.render text language = operation.prompt text language ↔
      operation ≠ translate ∨ ¬ textMark <:+: language ∨ text = textMark := by
  by_cases ho : operation = translate
  · subst ho
    have hmark : textMark ≠ [] := by decide
    rw [render_translate, ← Text.replaceAll_eq_self_iff hmark, prompt, prompt]
    simp
  · rw [render_of_ne ho]
    exact iff_of_true rfl (.inl ho)

def builtin : Operation → Action
  | summarize => .summary
  | explain => .explain
  | translate => .translate
  | improve => .improve
  | extract => .extract
  | tldr => .tldr
  | classify => .classify

theorem builtins_eq : Action.builtins = all.map builtin := rfl

theorem run_builtin (operation : Operation) : operation.builtin.run = Action.perform operation := by
  cases operation <;> rfl

end Operation

namespace Model

open Template

variable {c : Client} {p : Provider} {h m n : Host}

/-- The content of the response to a reply, or the very error. -/
def said (p : Provider) : Service.Answer → Except Halt Json
  | .ok reply => .ok (.str (content p reply))
  | .error e => .error e

theorem content_response (p : Provider) (reply : Service.Reply) :
    (response p reply).get "content" (.str []) = .ok (.str (content p reply)) := by
  unfold response
  cases reply.usage <;> rfl

section

variable [Runtime]

/-- An operation asks the service once, with its prompts. -/
theorem perform_asks (hc : (Client.make p).result m = (.ok c, n)) (ho : Service.Ordinary h.answer)
    (operation : Operation) (text : Text) {language : Text} {args : List Json} (config : Json)
    (hl : Action.language operation args = .str language) :
    ∃ k, (runProgram c (Action.perform operation { text := .str text, args, config })).result h =
        (said p h.answer, k) ∧
      Asks p c (operation.template.render text language) (some operation.template.system) h k := by
  obtain ⟨k, hend, hasks⟩ := generate_asks hc ho
    (operation.template.render text language) (some operation.template.system)
  refine ⟨k, ?_, hasks⟩
  have hanswer : (c.answer (.known (.apply operation (.str text) (.str language)))).result h =
      (said p h.answer, k) := by
    show (c.generate (.str (operation.template.render text language))
      (optional (some operation.template.system)) >>= fun response =>
        Job.check (response.get "content" (.str []))).result h = _
    rw [Job.result_bind, hend]
    cases h.answer with
    | ok reply =>
      simp only [verdict, content_response]
      rfl
    | error e => rfl
  unfold Action.perform
  rw [hl, result_askOnce, hanswer]
  cases h.answer <;> rfl

/-- What a built-in action asks for: the first argument is the language. Filled at once its places give
the prompt that is promised, and so do they one after the other, unless the action translates into a
language that holds the place of the text. -/
theorem builtin_fills {a : Action} (ha : a ∈ Action.builtins)
    (hc : (Client.make p).result m = (.ok c, n)) (ho : Service.Ordinary h.answer) (text : Text)
    (args : List Text) (config : Json) : ∃ operation : Operation, operation.builtin = a ∧
      (∃ k, (runProgram c (a.run { text := .str text, args := args.map .str, config })).result h =
          (said p h.answer, k) ∧
        Asks p c (operation.template.render text (args.headD Action.defaultLanguage))
          (some operation.template.system) h k) ∧
      fill text (args.headD Action.defaultLanguage) operation.template.user =
        operation.prompt text (args.headD Action.defaultLanguage) ∧
      (operation.template.render text (args.headD Action.defaultLanguage) =
          operation.prompt text (args.headD Action.defaultLanguage) ↔
        operation ≠ .translate ∨ ¬ textMark <:+: args.headD Action.defaultLanguage ∨
          text = textMark) := by
  rw [Operation.builtins_eq] at ha
  obtain ⟨operation, -, rfl⟩ := List.mem_map.1 ha
  refine ⟨operation, rfl, ?_, operation.fill_template text _,
    operation.render_eq_prompt_iff text _⟩
  rw [operation.run_builtin]
  by_cases hoperation : operation = .translate
  · subst hoperation
    have hl : Action.language .translate (args.map .str) =
        .str (args.headD Action.defaultLanguage) := by
      cases args <;> rfl
    exact perform_asks hc ho .translate text config hl
  · have hl : Action.language operation (args.map .str) = .str [] := by
      cases operation with
      | translate => exact absurd rfl hoperation
      | _ => rfl
    have hrender : ∀ language, operation.template.render text language = operation.lead ++ text := by
      intro language
      rw [Operation.render_of_ne hoperation, Operation.prompt_of_ne hoperation]
    have hasks := perform_asks hc ho operation text config hl
    rwa [hrender] at hasks ⊢

end

/-- A text is sent once if the language is a plain word. -/
theorem builtin_fills_spanish : ∃ c n k,
    (Client.make { type := "ollama", model := "m" }).result
      (answering (.ok { choices := [.str "si"] })) = (.ok c, n) ∧
    (runProgram c (Action.translate.run
        { text := .str "\x7bLANGUAGE\x7d", args := [.str "Spanish"], config := .null })).result
      (answering (.ok { choices := [.str "si"] })) = (.ok (.str "si"), k) ∧
    Operation.translate.template.render "\x7bLANGUAGE\x7d" "Spanish" =
      "Translate the following to Spanish:\n\n\x7bLANGUAGE\x7d" := by
  have hproper : Service.Ordinary (.ok { choices := [.str "si"] }) :=
    ⟨fun t ht => .inr ⟨"si", List.mem_singleton.1 ht⟩, nofun, by decide, nofun⟩
  have hmade : ∃ c n, (Client.make { type := "ollama", model := "m" }).result
      (answering (.ok { choices := [.str "si"] })) = (.ok c, n) := ⟨_, _, rfl⟩
  obtain ⟨c, n, hc⟩ := hmade
  obtain ⟨operation, hoperation, ⟨k, hend, -⟩, -, hrender⟩ :=
    builtin_fills (a := .translate) (h := answering (.ok { choices := [.str "si"] }))
      (by simp [Action.builtins]) hc hproper "\x7bLANGUAGE\x7d" ["Spanish"] .null
  obtain rfl : operation = .translate := by
    cases operation with
    | translate => rfl
    | _ => exact absurd (congrArg Action.id hoperation) (by decide)
  refine ⟨c, n, k, hc, hend, (hrender.2 (.inr (.inl ?_))).trans (by decide +kernel)⟩
  rw [← Text.occursIn_iff]
  decide +kernel

/-- A language that holds the place of the text is told the text, which is then sent twice. -/
theorem translate_fills_language : Operation.translate.template.render "x" textMark =
    "Translate the following to x:\n\nx" := by
  rw [Operation.render_translate]
  decide +kernel

end Model
end ClipActions
