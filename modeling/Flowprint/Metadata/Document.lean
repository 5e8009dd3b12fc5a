/-
  Flowprint.Metadata.Document
  ────────────────────────────────
  What is known about a function as a JSON document.
-/
import Flowprint.Json.Shape
import Flowprint.Json.Value
import Flowprint.Metadata.Basic

namespace Flowprint.Metadata

/-- What is known about a function as a document. -/
def toJson (metadata : Metadata) : Json.Value :=
  .object [("file_name", .text metadata.fileName), ("function_name", .text metadata.functionName),
    ("vulnerable", .bool metadata.vulnerable)]

/-- What a document says about a function. -/
def scanner : Json.Scanner Metadata :=
  (Json.record "FunctionMetadata"
    (.cons (.required "file_name" Json.text)
    (.cons (.required "function_name" Json.text)
    (.cons (.required "vulnerable" Json.bool) .nil)))).map
    fun (fileName, functionName, vulnerable, ()) => ⟨fileName, functionName, vulnerable⟩

end Flowprint.Metadata
