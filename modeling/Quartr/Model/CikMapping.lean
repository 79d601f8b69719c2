import Quartr.Model.ArtifactStore

/-! # The persisted ticker mapping

Every process that refreshes the mapping saves it to the one path of the configuration.
-/

namespace Quartr.Model

/-- `os.path.dirname`: what stands before the last slash, which is kept at the root only. -/
def Text.dirname (path : String) : String :=
  let head := path.toList.reverse.dropWhile (· ≠ '/')
  if head.all (· = '/') then String.ofList head.reverse
  else String.ofList (head.dropWhile (· = '/')).reverse

/-- `_save_to_disk`; the payload is the document that `json.dump` writes. -/
def CikMapping.saveToDisk {σ : Type} (path : String) (payload : Bytes) : Async σ Unit := do
  call (.makedirs (if Text.dirname path = "" then "." else Text.dirname path))
  let tmpPath := path ++ ".tmp"
  let descriptor ← call (.openTruncate tmpPath)
  call (.writeFile descriptor payload)
  call (.replace tmpPath path)

end Quartr.Model
