import ApiScribe.Document.Builder
import ApiScribe.FilePath
import ApiScribe.Source.Read

/-!
# From sources to the document

All files are extracted before any type is looked up; then every opted-in declaration is built, then
operations are assembled, and last the document is put together. Only a repeated declaration and an
unusable source of metadata end a run; everything else is a finding.
-/

namespace ApiScribe

open Source (File)

/-- Where the document's metadata comes from. -/
inductive MetadataSource where
  /-- The comments at the top of all files of the crate root. -/
  | crateRoot
  /-- The comments at the top of one file. -/
  | file (file : File)
  /-- A file that cannot be used. -/
  | unusable (failure : Failure)

/-- The metadata of a path: one of the files, or else what reading the path gives. -/
def MetadataSource.ofPath (files : List File) (path : String) (read : Except Failure File) :
    MetadataSource :=
  match files.find? fun known => FilePath.same known.path path with
  | some known => .file known
  | none =>
    match read with
    | .ok found => .file found
    | .error failure => .unusable failure

/-- The result of a run. -/
structure Generation where
  document : Document
  /-- What was reported: about declarations and metadata, then schemas, then operations. -/
  findings : List Finding
  /-- What was reported, in the order in which it came up. -/
  log : List Finding

namespace Generation

/-- The files whose comments hold the metadata. -/
def metadataFiles (files : List File) : MetadataSource → Except Failure (List File)
  | .crateRoot =>
    .ok (FilePath.sort File.path (files.filter fun file => file.module.isRoot))
  | .file file => .ok [file]
  | .unusable failure => .error failure

/-- Fold the comments at the top of files into one record. -/
def readMetadata (files : List File) : Comment.Document × List Finding :=
  files.foldl (fun (record, findings) file =>
    let lines := Source.docLines file.content.attributes
    if lines.isEmpty then (record, findings)
    else
      let (record, more) := Comment.Document.read record lines file.path
      (record, findings ++ more)) ({}, [])

/-- Run everything that follows extraction and metadata. -/
def finish (table : Table) (metadata : Comment.Document) (loader : Loader) (early : List Finding) :
    Generation :=
  let registry := Registry.ofResolver { table, loader }
  let (_, registry) := Registry.synthesizeAll.run registry
  let (built, registry) := registry.takeFindings
  let (operations, assembler) := (Operation.assembleAll table.candidates).run { registry }
  let (_, registry) := Registry.synthesizeAll.run assembler.registry
  let (late, registry) := registry.takeFindings
  let builder := assembler.tags.foldl Builder.addTag (Builder.withMetadata {} metadata)
  let (builder, placed) := builder.addOperations operations
  let ofOrigin (origin : Operation.Origin) : List Finding :=
    (assembler.journal.filter fun entry => entry.1 = origin).map Prod.snd
  { document := builder.build registry.components
    findings := early ++ built ++ ofOrigin .schemas ++ late ++ ofOrigin .operations ++ placed
    log := early ++ built ++ assembler.journal.map Prod.snd ++ late ++ placed }

end Generation

/-- Generate the document of a set of files. A failure comes with what was reported before it. -/
def generate (files : List File) (loader : Loader) (source : MetadataSource) :
    Except (Failure × List Finding) Generation :=
  let extraction := Extraction.ofFiles files
  match extraction.failure with
  | some failure => .error (failure, extraction.findings)
  | none =>
    match Generation.metadataFiles files source with
    | .error failure => .error (failure, extraction.findings)
    | .ok sources =>
      let (metadata, findings) := Generation.readMetadata sources
      .ok (Generation.finish extraction.table metadata loader (extraction.findings ++ findings))

end ApiScribe
