import Pagewright.Action.Request
import Pagewright.Generator.Basic
import Pagewright.Json.Decode

/-!
# Requests from documents

The record decoders of everything a caller can ask for, each with its field names
in declared order.
-/

set_option autoImplicit false

namespace Pagewright.Decoder

def styleValue : Decoder StyleValue
  | levels, .text s => (text levels (.text s)).map .text
  | levels, doc => (real levels doc).map .number

def position : Decoder Position :=
  record ["x", "y"] fun r => do
    let x ← r.required "x" real
    let y ← r.required "y" real
    some ⟨x, y⟩

def size : Decoder Size :=
  record ["width", "height"] fun r => do
    let width ← r.required "width" real
    let height ← r.required "height" real
    some ⟨width, height⟩

def component : Decoder Component :=
  record ["id", "type", "parentId", "childIds", "properties", "styles", "position", "size",
      "locked", "hidden"] fun r => do
    let id ← r.required "id" text
    let kind ← r.required "type" text
    let parentId ← r.defaulted "parentId" (optional text) none
    let childIds ← r.defaulted "childIds" (listOf text) []
    let properties ← r.defaulted "properties" (mapOf json) OrderedMap.empty
    let styles ← r.defaulted "styles" (mapOf styleValue) OrderedMap.empty
    let position ← r.defaulted "position" (optional position) none
    let size ← r.defaulted "size" (optional size) none
    let locked ← r.defaulted "locked" bool false
    let hidden ← r.defaulted "hidden" bool false
    some { id, kind, parentId, childIds, properties, styles, position, size, locked, hidden }

def openGraph : Decoder OpenGraph :=
  record ["title", "description", "image", "url", "type"] fun r => do
    let title ← r.nullable "title" text
    let description ← r.nullable "description" text
    let image ← r.nullable "image" text
    let url ← r.nullable "url" text
    let type ← r.nullable "type" text
    some ⟨title, description, image, url, type⟩

def metadata : Decoder Metadata :=
  record ["title", "description", "keywords", "openGraph", "robots", "canonical"] fun r => do
    let title ← r.nullable "title" text
    let description ← r.nullable "description" text
    let keywords ← r.defaulted "keywords" (listOf text) []
    let openGraph ← r.nullable "openGraph" openGraph
    let robots ← r.nullable "robots" text
    let canonical ← r.nullable "canonical" text
    some ⟨title, description, keywords, openGraph, robots, canonical⟩

def cacheStrategy : Decoder CacheStrategy :=
  choice [("force-cache", .forceCache), ("no-store", .noStore)]

def dataFetching : Decoder DataFetching :=
  record ["source", "revalidate", "variable", "cache"] fun r => do
    let source ← r.required "source" text
    let revalidate ← r.defaulted "revalidate" (optional natural) none
    let variableName ← r.defaulted "variable" (optional text) none
    let cache ← r.defaulted "cache" (optional cacheStrategy) none
    some ⟨source, revalidate, variableName, cache⟩

def page : Decoder PageRequest :=
  record ["title", "description", "path", "metadata", "dataFetching", "components"] fun r => do
    let title ← r.required "title" text
    let description ← r.defaulted "description" text ""
    let path ← r.required "path" text
    let metadata ← r.defaulted "metadata" (optional metadata) none
    let dataFetching ← r.defaulted "dataFetching" (optional dataFetching) none
    let components ← r.defaulted "components" (listOf component) []
    some ⟨title, description, path, metadata, dataFetching, components⟩

def project : Decoder ProjectRequest :=
  record ["name", "description", "pages"] fun r => do
    let name ← r.required "name" text
    let description ← r.defaulted "description" text ""
    let pages ← r.required "pages" (listOf page)
    some ⟨name, description, pages⟩

def options : Decoder Options :=
  record ["useTypeScript", "useServerComponents", "useTailwind", "prettier", "eslint",
      "emitComponentIds", "checkConsistency"] fun r => do
    let typeScript ← r.defaulted "useTypeScript" bool true
    let serverComponents ← r.defaulted "useServerComponents" bool true
    let utilityClasses ← r.defaulted "useTailwind" bool true
    let format ← r.defaulted "prettier" bool true
    let lint ← r.defaulted "eslint" bool false
    let componentIds ← r.defaulted "emitComponentIds" bool true
    let check ← r.defaulted "checkConsistency" bool true
    some ⟨typeScript, serverComponents, utilityClasses, format, lint, componentIds, check⟩

def paramKind : Decoder ParamKind :=
  choice [("string", .string), ("number", .number), ("catch-all", .catchAll),
    ("optional-catch-all", .optionalCatchAll)]

def fieldType : Decoder FieldType :=
  choice [("string", .string), ("number", .number), ("boolean", .boolean), ("email", .email),
    ("unknown", .unknown)]

def actionField : Decoder ActionField :=
  record ["name", "type", "required"] fun r => do
    let name ← r.required "name" text
    let type ← r.defaulted "type" fieldType .string
    let isRequired ← r.defaulted "required" bool true
    some ⟨name, type, isRequired⟩

def serverAction : Decoder ServerAction :=
  record ["name", "params", "body", "validate", "revalidatePath"] fun r => do
    let name ← r.required "name" text
    let params ← r.defaulted "params" (listOf actionField) []
    let body ← r.defaulted "body" text ""
    let validate ← r.defaulted "validate" bool false
    let revalidatePath ← r.defaulted "revalidatePath" (optional text) none
    some ⟨name, params, body, validate, revalidatePath⟩

def formAction : Decoder FormAction :=
  record ["name", "fields", "body", "revalidatePath"] fun r => do
    let name ← r.required "name" text
    let fields ← r.defaulted "fields" (listOf actionField) []
    let body ← r.defaulted "body" text ""
    let revalidatePath ← r.defaulted "revalidatePath" (optional text) none
    some ⟨name, fields, body, revalidatePath⟩

end Pagewright.Decoder
