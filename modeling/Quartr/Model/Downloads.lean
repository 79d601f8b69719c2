import Quartr.Model.Routes

/-! # Downloads

`GET /artifacts/{ref}`: the PDF behind a reference. Where only files have names, `os.path.isfile` asks whether
the name is taken.
-/

namespace Quartr.Model

/-- `str(exc)`; `represent` is `repr`. -/
def InvalidArtifactRef.message (represent : String → String) : InvalidArtifactRef → String
  | .ref text => "Invalid artifact ref: " ++ represent text
  | .accession text => "Invalid accession in ref: " ++ represent text

structure FileResponse where
  path : String
  mediaType : String
  filename : String
deriving DecidableEq, Repr

namespace Routes

variable {σ : Type}

/-- `f"{ticker}-{form.replace('/', '')}-{year}-{accession}.pdf"` -/
def downloadName (identity : ReportIdentity) (accession : String) : String :=
  identity.ticker ++ "-" ++ String.ofList (identity.form.toList.filter (· ≠ '/')) ++ "-" ++
    toString identity.year ++ "-" ++ accession ++ ".pdf"

/-- What the `try` block makes of a reference. -/
def located (settings : Settings) (ref : String) :
    Except InvalidArtifactRef (String × ReportIdentity × String) := do
  let path ← ArtifactStore.resolvePdfPath settings ref
  let (identity, accession) ← ArtifactStore.parseRef ref
  return (path, identity, accession)

/-- `GET /artifacts/{ref}`. -/
def getArtifact (settings : Settings) (represent : String → String) (ref : String) : Async σ FileResponse := do
  match located settings ref with
  | .error exc => throw (.http 400 (exc.message represent))
  | .ok (path, identity, accession) =>
    if ← call (.pathExists path) then
      return ⟨path, "application/pdf", downloadName identity accession⟩
    else
      throw (.http 404 "No artifact stored for this reference; request the report first")

end Routes

end Quartr.Model
