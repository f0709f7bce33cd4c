import ClipActions.Json.Access

/-!
Prompts of the built-in text operations. A template has a system prompt and a user prompt with
places for a language and for the text.
-/
namespace ClipActions

/-- A system prompt, and a user prompt with places to fill. -/
structure Template where
  system : Text
  user : Text

namespace Template

def languageMark : Text := "\x7bLANGUAGE\x7d"

def textMark : Text := "\x7bCONTEXT\x7d"

/-- The user prompt with its places filled, the language first; the text is never searched. -/
def render (template : Template) (text language : Text) : Text :=
  Text.replaceAll textMark text (Text.replaceAll languageMark language template.user)

end Template

inductive Operation where
  | summarize
  | explain
  | translate
  | improve
  | extract
  | tldr
  | classify
  deriving DecidableEq, Repr

namespace Operation

def all : List Operation := [summarize, explain, translate, improve, extract, tldr, classify]

def name : Operation → Text
  | summarize => "summarize"
  | explain => "explain"
  | translate => "translate"
  | improve => "improve"
  | extract => "extract_data"
  | tldr => "tldr"
  | classify => "classify"

def templateName : Operation → Text
  | summarize => "SUMMARIZE"
  | explain => "EXPLAIN"
  | translate => "TRANSLATE"
  | improve => "IMPROVE"
  | extract => "EXTRACT"
  | tldr => "TLDR"
  | classify => "CLASSIFY"

def template : Operation → Template
  | summarize => {
    system := "You are a helpful assistant that provides clear, concise summaries."
    user := "Summarize the following text concisely:\n\n\x7bCONTEXT\x7d" }
  | explain => {
    system := "You are a helpful assistant that explains things clearly. " ++
      "If this looks like code, explain what it does."
    user := "Explain the following:\n\n\x7bCONTEXT\x7d" }
  | translate => {
    system := "You are a translator. Only output the translation, nothing else."
    user := "Translate the following to \x7bLANGUAGE\x7d:\n\n\x7bCONTEXT\x7d" }
  | improve => {
    system := "You are an editor. Improve the text while preserving its meaning. " ++
      "Only output the improved text."
    user := "Improve the following writing for clarity and style:\n\n\x7bCONTEXT\x7d" }
  | extract => {
    system := "You are a data extraction assistant. " ++
      "Extract key information in a structured format."
    user := "Extract structured data from the following text. Output as JSON if applicable:\n\n" ++
      "\x7bCONTEXT\x7d" }
  | tldr => {
    system := "You provide extremely brief summaries. Be concise."
    user := "Give a very brief TL;DR (1-2 sentences max) of this:\n\n\x7bCONTEXT\x7d" }
  | classify => {
    system := "You are a content classifier. Categorize the given text into exactly one of these " ++
      "categories: email, code, url, log, article, chat, command, data, error, other. " ++
      "Respond with JSON only: \x7b\"category\": \"...\", \"confidence\": 0.0-1.0, " ++
      "\"reasoning\": \"...\"\x7d"
    user := "Classify this content:\n\n\x7bCONTEXT\x7d" }

end Operation
end ClipActions
