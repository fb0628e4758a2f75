import ModuleGraph.Proofs.Lexemes
import ModuleGraph.Statement

/-!
# Written declarations

Imports, exports of names and module declarations as they are written, one on a line and each ended
by a semicolon: `Written.text`. Local names are never reserved words, by their type; the names that
modules export are identifier names of any kind or strings. `Written.Declaration.tree` is the
statement that a declaration stands for, without its places in a text (`Statement.bare`).
-/

namespace ModuleGraph

/-! ## Statements without places -/

mutual

/-- A statement without its places. -/
def Statement.bare : Statement → Statement
  | .importFrom source bindings _ => .importFrom source bindings default
  | .exportNames names source _ => .exportNames names source default
  | .exportAll source name? _ => .exportAll source name? default
  | .exportDeclaration names code _ => .exportDeclaration names code.bare default
  | .exportDefault localName code _ => .exportDefault localName code.bare default
  | .module d => .module d.bare
  | .code c => .code c.bare

/-- Code without its places. -/
def Code.bare : Code → Code
  | .mk _ modules => .mk default (ModuleDeclaration.bareAll modules)

/-- A module declaration without its places. -/
def ModuleDeclaration.bare : ModuleDeclaration → ModuleDeclaration
  | .mk name exported placement body _ _ =>
    .mk name exported placement (Statement.bareAll body) default default

/-- Statements without their places. -/
def Statement.bareAll : List Statement → List Statement
  | [] => []
  | s :: ss => s.bare :: Statement.bareAll ss

/-- Module declarations without their places. -/
def ModuleDeclaration.bareAll : List ModuleDeclaration → List ModuleDeclaration
  | [] => []
  | d :: ds => d.bare :: ModuleDeclaration.bareAll ds

end

/-- Statements lose their places one by one. -/
theorem Statement.bareAll_eq (body : List Statement) : bareAll body = body.map bare := by
  induction body with
  | nil => rfl
  | cons s body ih => rw [bareAll, ih, List.map_cons]

namespace Written

/-! ## Declarations -/

/-- A name of a clause: an identifier name, reserved or not, or a string. -/
inductive Name where
  | word (word : Word)
  | string (value : String)

/-- How a declaration names another module. -/
inductive Source where
  | url (text : String)
  | fragment (name : LocalName)

/-- A name between braces, and the new name behind `as` where there is one. -/
inductive Entry (α : Type) where
  | plain (name : α)
  | renamed (name : Name) (newName : α)

/-- What an import binds besides its default binding. -/
inductive Bindings where
  | names (entries : List (Entry LocalName))
  | namespace (localName : LocalName)

/-- What an import binds. -/
inductive Clause where
  | default (localName : LocalName)
  | bindings (bindings : Bindings)
  | both (localName : LocalName) (bindings : Bindings)

/-- An import, an export of names or a module declaration. An import without a clause names its
module by a string. -/
inductive Declaration where
  | importEffect (url : String)
  | importFrom (clause : Clause) (source : Source)
  | exportNames (names : List (Entry Name)) (source? : Option Source)
  | exportAll (name? : Option Name) (source : Source)
  | module (exported : Bool) (name : LocalName) (body : List Declaration)

/-! ## Their statements -/

/-- The name that is written. -/
def Name.value : Name → String
  | .word w => w.name
  | .string value => value

/-- A local name as a name of a clause. -/
def Name.ofLocal (n : LocalName) : Name :=
  .word n.toWord

/-- The specifier of a source. -/
def Source.specifier : Source → Specifier
  | .url text => .url text
  | .fragment n => .fragment n.name

/-- A statement's name for an entry, made of its name and its new name. -/
def Entry.value {α β : Type} (build : String → String → β) (toName : α → Name) : Entry α → β
  | .plain a => build (toName a).value (toName a).value
  | .renamed n a => build n.value (toName a).value

/-- The bindings of an import besides its default binding. -/
def Bindings.list : Bindings → List ImportBinding
  | .names entries => entries.map (Entry.value .named .ofLocal)
  | .namespace n => [.namespace n.name]

/-- The bindings of an import. -/
def Clause.list : Clause → List ImportBinding
  | .default n => [.default n.name]
  | .bindings b => b.list
  | .both n b => .default n.name :: b.list

mutual

/-- The statement that a declaration stands for, without places. -/
def Declaration.tree : Declaration → Statement
  | .importEffect url => .importFrom (.url url) [] default
  | .importFrom clause source => .importFrom source.specifier clause.list default
  | .exportNames names source? =>
    .exportNames (names.map (Entry.value .mk id)) (source?.map Source.specifier) default
  | .exportAll name? source => .exportAll source.specifier (name?.map Name.value) default
  | .module exported n body =>
    .module (.mk (some n.name) exported .statement (Declaration.trees body) default default)

/-- The statements that declarations stand for, without places. -/
def Declaration.trees : List Declaration → List Statement
  | [] => []
  | d :: ds => d.tree :: Declaration.trees ds

end

/-- Declarations stand for statements one by one. -/
theorem Declaration.trees_eq (ds : List Declaration) : trees ds = ds.map tree := by
  induction ds with
  | nil => rfl
  | cons d ds ih => rw [trees, ih, List.map_cons]

/-! ## Their text -/

/-- The words of declarations. -/
def importWord : Lexeme := .word ⟨"import", by decide⟩

@[inherit_doc importWord] def exportWord : Lexeme := .word ⟨"export", by decide⟩

@[inherit_doc importWord] def moduleWord : Lexeme := .word ⟨"module", by decide⟩

@[inherit_doc importWord] def fromWord : Lexeme := .word ⟨"from", by decide⟩

@[inherit_doc importWord] def asWord : Lexeme := .word ⟨"as", by decide⟩

/-- A name as it is written. -/
def Name.lexeme : Name → Lexeme
  | .word w => .word w
  | .string value => .string value

/-- A source as it is written. -/
def Source.lexeme : Source → Lexeme
  | .url text => .string text
  | .fragment n => .word n.toWord

/-- An entry as it is written. -/
def Entry.lexemes {α : Type} (toName : α → Name) : Entry α → List Lexeme
  | .plain a => [(toName a).lexeme]
  | .renamed n a => [n.lexeme, asWord, (toName a).lexeme]

/-- Commas between lists of tokens. -/
def commas : List (List Lexeme) → List Lexeme
  | [] => []
  | [ls] => ls
  | ls :: ms :: more => ls ++ .comma :: commas (ms :: more)

/-- Entries between braces as they are written. -/
def braced {α : Type} (toName : α → Name) (names : List (Entry α)) : List Lexeme :=
  .leftBrace :: commas (names.map (Entry.lexemes toName)) ++ [.rightBrace]

/-- Bindings as they are written. -/
def Bindings.lexemes : Bindings → List Lexeme
  | .names entries => braced .ofLocal entries
  | .namespace n => [.star, asWord, .word n.toWord]

/-- The bindings of an import as they are written. -/
def Clause.lexemes : Clause → List Lexeme
  | .default n => [.word n.toWord]
  | .bindings b => b.lexemes
  | .both n b => .word n.toWord :: .comma :: b.lexemes

/-- Tokens that stay on one line. -/
def inline (ls : List Lexeme) : List Piece :=
  ls.map (⟨·, false⟩)

/-- A line that a semicolon ends. -/
def line (ls : List Lexeme) : List Piece :=
  inline ls ++ [⟨.semicolon, true⟩]

mutual

/-- A declaration as it is written. The lines of a module's body stand between those of its
braces. -/
def Declaration.pieces : Declaration → List Piece
  | .importEffect url => line [importWord, .string url]
  | .importFrom clause source =>
    line (importWord :: clause.lexemes ++ [fromWord, source.lexeme])
  | .exportNames names source? =>
    line (exportWord :: braced id names ++ source?.elim [] fun source => [fromWord, source.lexeme])
  | .exportAll name? source =>
    line (exportWord :: .star :: (name?.elim [] fun n => [asWord, n.lexeme])
      ++ [fromWord, source.lexeme])
  | .module exported n body =>
    inline ((if exported then [exportWord] else []) ++ [moduleWord, .word n.toWord])
      ++ ⟨.leftBrace, true⟩ :: Declaration.lines body ++ line [.rightBrace]

/-- Declarations as they are written, one behind the other. -/
def Declaration.lines : List Declaration → List Piece
  | [] => []
  | d :: ds => d.pieces ++ Declaration.lines ds

end

/-- The text of declarations. -/
def text (ds : List Declaration) : List Char :=
  Piece.text (Declaration.lines ds)

example :
    let «as» : LocalName := ⟨⟨"as", by decide⟩, by decide⟩
    let clause : Clause := .both «as» (.names [.plain «as», .renamed (.string "a\nb") «as»])
    text [.module true «as» [.importFrom clause (.fragment «as»)]] =
      ("export module as \x7b\nimport as, \x7b as, \"a\\nb\" as as \x7d from as;\n"
        ++ "\x7d;\n").toList := by
  decide

end Written

end ModuleGraph
