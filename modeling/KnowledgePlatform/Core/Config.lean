import KnowledgePlatform.Python.Text

/-!
# Settings

The settings the modelled functions read, with the defaults of the source.
-/

open Python

namespace Core

structure Settings where
  accessTokenTtlSeconds : ℕ := 15 * 60
  refreshTokenTtlSeconds : ℕ := 14 * 24 * 60 * 60
  apiKeyPrefix : Str := "akp_".toList
  chunkSize : ℤ := 1000
  chunkOverlap : ℤ := 150
  maxUploadBytes : ℕ := 25 * 1024 * 1024
  autoIngestOnUpload : Bool := true
  retrievalCandidateK : ℕ := 50
  rrfK : ℕ := 60
  searchDefaultLimit : ℕ := 10
  generationContextChunks : ℕ := 8
  maxHistoryMessages : ℕ := 20
  deriving DecidableEq, Repr

end Core
