import Quartr.Model.Repository

/-! # Artifact storage

An accession directory holds the preserved source, `report.pdf` and `metadata.json`, each
published by writing a temporary file and renaming it.
-/

namespace Quartr.Model

open Quartr.Machine

variable {σ : Type}

structure ArtifactPaths where
  root : String
  sourcePath : String
  pdfPath : String
  metadataPath : String
deriving DecidableEq, Repr

/-- `InvalidArtifactRefError`: whether the whole reference or its accession number is malformed. -/
inductive InvalidArtifactRef
  | ref (ref : String)
  | accession (ref : String)
deriving DecidableEq, Repr

namespace ArtifactStore

/-- `\d{10}-\d{2}-\d+` -/
def accessionBody (text : List Char) : Bool :=
  let digits (part : List Char) := part.all fun c => (Text.digitValue? c).isSome
  match text.splitOn '-' with
  | [filer, year, number] =>
    (filer.length = 10 && digits filer) && (year.length = 2 && digits year) &&
      (number ≠ [] && digits number)
  | _ => false

/-- `_ACCESSION_RE.match`. -/
def accessionMatches (accessionNumber : String) : Bool :=
  matchesToEnd accessionBody accessionNumber.toList

/-- `ref_for`: the public reference of an artifact. -/
def refFor (identity : ReportIdentity) (accessionNumber : String) : String :=
  "/".intercalate (identity.pathSegments ++ [accessionNumber])

/-- What `parse_ref` does with the logical segments once the accession number matched. -/
def parseLogical (ref ticker form year : String) (quarter : Option String) :
    Except InvalidArtifactRef ReportIdentity :=
  match Text.int? year with
  | none => .error (.ref ref)
  | some year => (ReportIdentity.make ticker (decodeForm form) year quarter).mapError fun _ => .ref ref

/-- `parse_ref`: the accession number comes last, and the quarter is optional. -/
def parseRef (ref : String) : Except InvalidArtifactRef (ReportIdentity × String) :=
  match Text.segments ref with
  | [ticker, form, year, accession] =>
    if accessionMatches accession then
      (parseLogical ref ticker form year none).map fun identity => (identity, accession)
    else .error (.accession ref)
  | [ticker, form, year, quarter, accession] =>
    if accessionMatches accession then
      (parseLogical ref ticker form year (some quarter)).map fun identity => (identity, accession)
    else .error (.accession ref)
  | _ => .error (.ref ref)

/-- `_accession_dir`: the quarter is no part of the physical layout. -/
def accessionDir (settings : Settings) (identity : ReportIdentity) (accessionNumber : String) :
    String :=
  [identity.ticker, encodeForm identity.form, toString identity.year,
    "accession-" ++ accessionNumber].foldl Text.joinPath settings.storageRoot

def pathsFor (settings : Settings) (identity : ReportIdentity)
    (accessionNumber sourceExtension : String) : ArtifactPaths :=
  let accessionDir := accessionDir settings identity accessionNumber
  { root := accessionDir
    sourcePath := Text.joinPath accessionDir ("filing" ++ sourceExtension)
    pdfPath := Text.joinPath accessionDir "report.pdf"
    metadataPath := Text.joinPath accessionDir "metadata.json" }

/-- `resolve_pdf_path`: where the PDF behind a reference lies. -/
def resolvePdfPath (settings : Settings) (ref : String) : Except InvalidArtifactRef String :=
  (parseRef ref).map fun (identity, accession) =>
    Text.joinPath (accessionDir settings identity accession) "report.pdf"

def artifactExists (paths : ArtifactPaths) : Async σ Bool := call (.pathExists paths.pdfPath)

def tmpPath (path : String) : String := path ++ ".tmp"

def atomicWrite (path : String) (data : Bytes) : Async σ Unit := do
  let descriptor ← call (.openTruncate (tmpPath path))
  call (.writeFile descriptor data)
  call (.replace (tmpPath path) path)

/-- `pdf_metadata.__dict__` as `json.dumps(..., indent=2)` encodes it. -/
def metadataBytes (metadata : PdfMetadata) : Bytes :=
  Text.jsonObject
    [("ticker", metadata.ticker), ("company_name", metadata.companyName), ("cik", metadata.cik),
      ("form", metadata.form), ("filing_date", metadata.filingDate),
      ("accession_number", metadata.accessionNumber),
      ("primary_document", metadata.primaryDocument), ("source_url", metadata.sourceUrl),
      ("generation_timestamp", metadata.generationTimestamp)]

/-- The three files in order: source, PDF, metadata. -/
def write (paths : ArtifactPaths) (sourceBytes pdfBytes : Bytes) (metadata : PdfMetadata) :
    Async σ Unit := do
  call (.makedirs paths.root)
  atomicWrite paths.sourcePath sourceBytes
  atomicWrite paths.pdfPath pdfBytes
  atomicWrite paths.metadataPath (metadataBytes metadata)

end ArtifactStore

end Quartr.Model
