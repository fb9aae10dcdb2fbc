import Bingo.Strings
import Bingo.FilePath
import Bingo.Lsp
import Bingo.Ast
import Bingo.Types
import Bingo.Workspace
import Bingo.Resolve
import Bingo.References.Collect
import Bingo.References.Search
import Bingo.References.Handler
import Bingo.Implementation
import Bingo.Definition
import Bingo.Hover.TypeString
import Bingo.Hover.Pretty
import Bingo.Hover.Ident
import Bingo.Hover.Handler
import Bingo.Symbol.Query
import Bingo.Symbol.Collect
import Bingo.Symbol.Search
import Bingo.SignatureHelp
import Bingo.Project.Update
import Bingo.Project.Debounce
import Bingo.Project.Rebuild
import Bingo.Project.Create
import Bingo.Project.Cache
import Bingo.Project.Init
