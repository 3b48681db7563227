import Caption.Json.Reader

/-!
The tokens of a written tree, and the stack machine that reads them: whatever the containers that are
open, the tokens of a tree are taken as a whole and the tree is put into the innermost of them.
-/
namespace Caption

namespace Written

mutual

def tokens : Written → List Token
  | .null => [.null]
  | .bool value => [.bool value]
  | .number numeral => [.number numeral]
  | .string pieces => [.string pieces]
  | .array items => .openArray :: (tokensOfItems items ++ [.closeArray])
  | .object members => .openObject :: (tokensOfMembers members ++ [.closeObject])

def tokensOfItems : List Written → List Token
  | [] => []
  | [item] => item.tokens
  | item :: next :: rest => item.tokens ++ .comma :: tokensOfItems (next :: rest)

def tokensOfMembers : List (List Piece × Written) → List Token
  | [] => []
  | [(key, item)] => .string key :: .colon :: item.tokens
  | (key, item) :: next :: rest =>
    .string key :: .colon :: (item.tokens ++ .comma :: tokensOfMembers (next :: rest))

end

end Written

namespace Reader

open Written (tokens tokensOfItems tokensOfMembers)

theorem run_append (reader : Reader) (first later : List Token) :
    reader.run (first ++ later) = (reader.run first).bind fun next => next.run later := by
  induction first generalizing reader with
  | nil => rfl
  | cons token rest ih =>
    rw [List.cons_append, run, run]
    cases reader.step token with
    | none => rfl
    | some next => exact ih next

theorem run_singleton (reader : Reader) (token : Token) : reader.run [token] = reader.step token := by
  rw [run]
  cases reader.step token <;> rfl

/-- Where the first item or the end of an array may come, items are taken like anywhere else. -/
theorem run_itemOrClose (item : Written) (rest : List Written) (later : List Token)
    (stack : List Frame) :
    run ⟨stack, .itemOrClose⟩ (tokensOfItems (item :: rest) ++ later) =
      run ⟨stack, .value⟩ (tokensOfItems (item :: rest) ++ later) := by
  cases rest <;> cases item <;> rfl

/-- Where the first key or the end of an object may come, members are taken like anywhere else. -/
theorem run_keyOrClose (member : List Piece × Written) (rest : List (List Piece × Written))
    (later : List Token) (members : List (List Piece × Written)) (stack : List Frame) :
    run ⟨.object members :: stack, .keyOrClose⟩ (tokensOfMembers (member :: rest) ++ later) =
      run ⟨.object members :: stack, .key⟩ (tokensOfMembers (member :: rest) ++ later) := by
  cases rest <;> rfl

mutual

/-- The tokens of a tree put it into the innermost open container. -/
theorem run_tokens : (tree : Written) → (stack : List Frame) →
    run ⟨stack, .value⟩ tree.tokens = deliver tree stack
  | .null, stack => run_singleton _ _
  | .bool _, stack => run_singleton _ _
  | .number _, stack => run_singleton _ _
  | .string _, stack => run_singleton _ _
  | .array [], stack => run_singleton _ _
  | .array (item :: rest), stack => by
    have opened : run ⟨stack, .value⟩ (tokens (.array (item :: rest))) =
        run ⟨.array [] :: stack, .itemOrClose⟩ (tokensOfItems (item :: rest) ++ [.closeArray]) := rfl
    rw [opened, run_itemOrClose, run_append, run_items (item :: rest) (by simp), Option.bind_some,
      run_singleton]
    simp [step]
  | .object [], stack => run_singleton _ _
  | .object (member :: rest), stack => by
    have opened : run ⟨stack, .value⟩ (tokens (.object (member :: rest))) =
        run ⟨.object [] :: stack, .keyOrClose⟩
          (tokensOfMembers (member :: rest) ++ [.closeObject]) := rfl
    rw [opened, run_keyOrClose, run_append, run_members (member :: rest) (by simp), Option.bind_some,
      run_singleton]
    simp [step]

/-- The tokens of items put them into the open array. -/
theorem run_items : (items : List Written) → items ≠ [] → (done : List Written) →
    (stack : List Frame) → run ⟨.array done :: stack, .value⟩ (tokensOfItems items) =
      some ⟨.array (items.reverse ++ done) :: stack, .separator⟩
  | [], nonempty, done, stack => absurd rfl nonempty
  | [item], _, done, stack => run_tokens item _
  | item :: next :: rest, _, done, stack => by
    have comma : run ⟨.array (item :: done) :: stack, .separator⟩
        (.comma :: tokensOfItems (next :: rest)) =
          run ⟨.array (item :: done) :: stack, .value⟩ (tokensOfItems (next :: rest)) := rfl
    rw [tokensOfItems, run_append, run_tokens item, deliver, Option.bind_some, comma,
      run_items (next :: rest) (by simp), List.reverse_cons (a := item), List.append_assoc,
      List.singleton_append]

/-- The tokens of members put them into the open object. -/
theorem run_members : (members : List (List Piece × Written)) → members ≠ [] →
    (done : List (List Piece × Written)) → (stack : List Frame) →
    run ⟨.object done :: stack, .key⟩ (tokensOfMembers members) =
      some ⟨.object (members.reverse ++ done) :: stack, .separator⟩
  | [], nonempty, done, stack => absurd rfl nonempty
  | [(key, item)], _, done, stack => run_tokens item (.member done key :: stack)
  | (key, item) :: next :: rest, _, done, stack => by
    have named : run ⟨.object done :: stack, .key⟩ (tokensOfMembers ((key, item) :: next :: rest)) =
        run ⟨.member done key :: stack, .value⟩
          (item.tokens ++ .comma :: tokensOfMembers (next :: rest)) := rfl
    have comma : run ⟨.object ((key, item) :: done) :: stack, .separator⟩
        (.comma :: tokensOfMembers (next :: rest)) =
          run ⟨.object ((key, item) :: done) :: stack, .key⟩ (tokensOfMembers (next :: rest)) := rfl
    rw [named, run_append, run_tokens item, deliver, Option.bind_some, comma,
      run_members (next :: rest) (by simp), List.reverse_cons (a := (key, item)), List.append_assoc,
      List.singleton_append]

end

end Reader

/-- A text that is split into the tokens of a tree is read as the tree. -/
theorem Written.read?_eq_some {source : String} {tree : Written}
    (split : Token.scan source.toList = some tree.tokens) : read? source = some tree := by
  rw [read?, split]
  have whole : Reader.start.run tree.tokens = some ⟨[], .finished tree⟩ := Reader.run_tokens tree []
  simp [whole, Reader.tree?]

end Caption
