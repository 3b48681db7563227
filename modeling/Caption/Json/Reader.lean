import Caption.Json.Token

/-!
Reading a JSON text: its tokens build one written tree, on a stack of the containers that are
still open, and the tree has a value if it nests at most `Json.nestingLimit` deep.
-/
namespace Caption

/-- A container that is still open, with its finished parts listed backwards. -/
inductive Frame where
  | array (items : List Written)
  | object (members : List (List Piece × Written))
  | member (members : List (List Piece × Written)) (key : List Piece)

/-- What the next token may be. -/
inductive Phase where
  | value
  | itemOrClose
  | keyOrClose
  | key
  | colon
  | separator
  | finished (tree : Written)

/-- The state of reading: the open containers, innermost first, and what comes next. -/
structure Reader where
  stack : List Frame
  phase : Phase

namespace Reader

def start : Reader := ⟨[], .value⟩

/-- Put a finished tree into the innermost open container. -/
def deliver (tree : Written) : List Frame → Option Reader
  | [] => some ⟨[], .finished tree⟩
  | .array items :: rest => some ⟨.array (tree :: items) :: rest, .separator⟩
  | .member members key :: rest => some ⟨.object ((key, tree) :: members) :: rest, .separator⟩
  | .object _ :: _ => none

def begin (stack : List Frame) : Token → Option Reader
  | .null => deliver .null stack
  | .bool value => deliver (.bool value) stack
  | .number numeral => deliver (.number numeral) stack
  | .string pieces => deliver (.string pieces) stack
  | .openArray => some ⟨.array [] :: stack, .itemOrClose⟩
  | .openObject => some ⟨.object [] :: stack, .keyOrClose⟩
  | _ => none

def step (reader : Reader) (token : Token) : Option Reader :=
  match reader.phase, token, reader.stack with
  | .value, token, stack => begin stack token
  | .itemOrClose, .closeArray, .array items :: rest => deliver (.array items.reverse) rest
  | .itemOrClose, token, stack => begin stack token
  | .keyOrClose, .closeObject, .object members :: rest => deliver (.object members.reverse) rest
  | .keyOrClose, .string key, .object members :: rest => some ⟨.member members key :: rest, .colon⟩
  | .key, .string key, .object members :: rest => some ⟨.member members key :: rest, .colon⟩
  | .colon, .colon, stack => some ⟨stack, .value⟩
  | .separator, .comma, .array items :: rest => some ⟨.array items :: rest, .value⟩
  | .separator, .comma, .object members :: rest => some ⟨.object members :: rest, .key⟩
  | .separator, .closeArray, .array items :: rest => deliver (.array items.reverse) rest
  | .separator, .closeObject, .object members :: rest => deliver (.object members.reverse) rest
  | _, _, _ => none

def run (reader : Reader) : List Token → Option Reader
  | [] => some reader
  | token :: rest =>
    match reader.step token with
    | none => none
    | some next => next.run rest

/-- The tree, once all of it was read. -/
def tree? (reader : Reader) : Option Written :=
  match reader.stack, reader.phase with
  | [], .finished tree => some tree
  | _, _ => none

end Reader

namespace Written

/-- The written tree of a text, if the text is one JSON value between blanks. -/
def read? (source : String) : Option Written := do
  let tokens ← Token.scan source.toList
  let reader ← Reader.start.run tokens
  reader.tree?

end Written

namespace Json

/-- Containers may enclose one another this deep. -/
def nestingLimit : Nat := 127

/-- The value of a JSON text. -/
def read? (source : String) : Option Json := do
  let tree ← Written.read? source
  tree.value? nestingLimit

end Json

end Caption
