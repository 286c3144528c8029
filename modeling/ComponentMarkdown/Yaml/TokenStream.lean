/-
The token stream of a YAML text.

A mapping key without an indicator of its own is known as one only at the
colon behind it. So wherever a key could start, its place in the stream is
remembered, and at the colon the key token, and with it the start of the
block mapping, is put there. Such a key must be on one line with its colon
and not too far away; where the indentation calls for a key, a place that
turns out to be none is an error.
-/
import ComponentMarkdown.Yaml.Block
import ComponentMarkdown.Yaml.Token

namespace ComponentMarkdown.Yaml

/-- A place where a key may have started. -/
structure PossibleKey where
  /-- Whether there must be a key. -/
  required : Bool
  /-- How many tokens precede the place. -/
  index : Nat
  position : Position
  deriving DecidableEq, Repr

/-- What is known between two tokens. -/
structure TokenStream where
  rest : Text
  position : Position
  /-- The column of the innermost block, or minus one outside all. -/
  indent : Int
  /-- The columns of the blocks around it. -/
  outer : List Int
  /-- For each flow collection around, the innermost first, and at last
  for the block around them all, where a key may have started. -/
  keys : List (Option PossibleKey)
  /-- Whether a key may start here. -/
  keyAllowed : Bool
  /-- The tokens so far, the last first. -/
  emitted : List Token

namespace TokenStream

/-- The start of a text. -/
def start (s : Text) : TokenStream :=
  ⟨s, ⟨0, 0⟩, -1, [], [none], true, []⟩

/-- Whether a flow collection is open. -/
def inFlow (s : TokenStream) : Bool := 1 < s.keys.length

/-- One more token. -/
def emit (s : TokenStream) (t : Token) : TokenStream :=
  { s with emitted := t :: s.emitted }

/-- A token put behind the first `index` tokens. -/
def insertAt (s : TokenStream) (index : Nat) (t : Token) : TokenStream :=
  { s with emitted := s.emitted.insertIdx (s.emitted.length - index) t }

/-- Goes on to what follows some characters of the rest. -/
def moveTo (s : TokenStream) (rest : Text) : TokenStream :=
  let passed := s.rest.take (s.rest.length - rest.length)
  { s with rest := rest, position := s.position.over passed }

-- =============================================================== keys

/-- Gives up the place where a key may have started, unless there must be
one. -/
def dropKey (s : TokenStream) : Option TokenStream :=
  match s.keys with
  | [] => some s
  | none :: _ => some s
  | some key :: more =>
    if key.required then none else some { s with keys := none :: more }

/-- Remembers that a key may start here. -/
def markKey (s : TokenStream) : Option TokenStream :=
  if s.keyAllowed then
    s.dropKey.map fun s =>
      let key : PossibleKey :=
        ⟨!s.inFlow && s.indent == s.position.column, s.emitted.length,
          s.position⟩
      { s with keys := some key :: s.keys.tail }
  else some s

/-- How far behind its start the colon of a key may stand. -/
def maxKeyLength : Nat := 1024

/-- Gives up the places too far away for a key. -/
def dropStaleKeys (s : TokenStream) : Option TokenStream :=
  let renew := fun (key? : Option PossibleKey) =>
    match key? with
    | none => some none
    | some key =>
      if key.position.line < s.position.line
          || key.position.column + maxKeyLength < s.position.column then
        if key.required then none else some none
      else some (some key)
  (s.keys.mapM renew).map fun keys => { s with keys := keys }

/-- Sets whether a key may start here. -/
def allowKey (s : TokenStream) (allowed : Bool) : TokenStream :=
  { s with keyAllowed := allowed }

-- ========================================================= indentation

/-- Opens a block at a column further in, its start put behind the first
`index` tokens. -/
def openBlock (s : TokenStream) (column index : Nat) (t : Token) :
    TokenStream :=
  if !s.inFlow && s.indent < column then
    { s.insertAt index t with
      indent := column, outer := s.indent :: s.outer }
  else s

/-- The tokens and columns after closing the blocks further in than a
column. -/
def closeFrom (column indent : Int) (emitted : List Token) :
    List Int → Int × List Int × List Token
  | [] => (indent, [], emitted)
  | next :: outer =>
    if column < indent then closeFrom column next (.blockEnd :: emitted) outer
    else (indent, next :: outer, emitted)

/-- Closes the blocks further in than a column. -/
def closeBlocks (s : TokenStream) (column : Int) : TokenStream :=
  if s.inFlow then s
  else
    let (indent, outer, emitted) := closeFrom column s.indent s.emitted s.outer
    { s with indent := indent, outer := outer, emitted := emitted }

-- ========================================================== one token

/-- What follows blanks and comments, and whether a key may start there. A
byte order mark at the start of a line is passed over. A tab may not stand
where a key could start in a block. -/
def skipBlanks (flow : Bool) : Bool → Bool → Bool → Text → Text × Bool
  | _, _, allowed, [] => ([], allowed)
  | lineStart, comment, allowed, c :: rest =>
    if isBreak c then skipBlanks flow true false (allowed || !flow) rest
    else if comment then skipBlanks flow false true allowed rest
    else if c = byteOrderMark && lineStart then
      skipBlanks flow false false allowed rest
    else if c = ' ' || (c = '\t' && (flow || !allowed)) then
      skipBlanks flow false false allowed rest
    else if c = '#' then skipBlanks flow false true allowed rest
    else (c :: rest, allowed)

/-- Goes on to the next token and settles what its position decides. -/
def advance (s : TokenStream) : Option TokenStream :=
  let (rest, allowed) :=
    skipBlanks s.inFlow (s.position.column == 0) false s.keyAllowed s.rest
  ((s.moveTo rest).allowKey allowed).dropStaleKeys.map fun s =>
    s.closeBlocks s.position.column

/-- A token outside all blocks, read up to the given rest. -/
def emitOutside (s : TokenStream) (t : Token) (rest : Text) :
    Option TokenStream :=
  (s.closeBlocks (-1)).dropKey.map fun s =>
    ((s.allowKey false).moveTo rest).emit t

/-- The start of a flow collection. -/
def openFlow (s : TokenStream) (t : Token) (rest : Text) :
    Option TokenStream :=
  s.markKey.map fun s =>
    ((({ s with keys := none :: s.keys }).allowKey true).moveTo rest).emit t

/-- The end of a flow collection. -/
def closeFlow (s : TokenStream) (t : Token) (rest : Text) :
    Option TokenStream :=
  s.dropKey.map fun s =>
    let keys := if s.inFlow then s.keys.tail else s.keys
    ((({ s with keys := keys }).allowKey false).moveTo rest).emit t

/-- A comma between the entries of a flow collection. -/
def emitFlowEntry (s : TokenStream) (rest : Text) : Option TokenStream :=
  s.dropKey.map fun s => ((s.allowKey true).moveTo rest).emit .flowEntry

/-- The hyphen of a block sequence. -/
def emitBlockEntry (s : TokenStream) (rest : Text) : Option TokenStream :=
  if !s.inFlow && !s.keyAllowed then none
  else
    (s.openBlock s.position.column s.emitted.length
        .blockSequenceStart).dropKey.map fun s =>
      ((s.allowKey true).moveTo rest).emit .blockEntry

/-- The question mark before a key. -/
def emitKey (s : TokenStream) (rest : Text) : Option TokenStream :=
  if !s.inFlow && !s.keyAllowed then none
  else
    (s.openBlock s.position.column s.emitted.length
        .blockMappingStart).dropKey.map fun s =>
      ((s.allowKey !s.inFlow).moveTo rest).emit .key

/-- The colon behind a key. -/
def emitValue (s : TokenStream) (rest : Text) : Option TokenStream :=
  match s.keys.head?.join with
  | some key =>
    let s := s.insertAt key.index .key
    let s := s.openBlock key.position.column key.index .blockMappingStart
    let s := { s with keys := none :: s.keys.tail }
    some (((s.allowKey false).moveTo rest).emit .value)
  | none =>
    if !s.inFlow && !s.keyAllowed then none
    else
      let s := s.openBlock s.position.column s.emitted.length
        .blockMappingStart
      some (((s.allowKey !s.inFlow).moveTo rest).emit .value)

/-- A token that may itself start a key. -/
def emitContent (s : TokenStream) (read? : Option (Token × Text)) :
    Option TokenStream :=
  s.markKey.bind fun s =>
    read?.map fun (t, rest) => ((s.allowKey false).moveTo rest).emit t

/-- A block scalar. -/
def emitBlockScalar (s : TokenStream) (folded : Bool) (rest : Text) :
    Option TokenStream :=
  s.dropKey.bind fun s =>
    (block? folded (s.indent + 1).toNat rest).map fun (t, rest) =>
      ((s.allowKey true).moveTo rest).emit (.scalar t false)

/-- A plain scalar. A key may follow it if it read a line break. -/
def emitPlain (s : TokenStream) : Option TokenStream :=
  s.markKey.bind fun s =>
    (plain? s.inFlow (s.indent + 1).toNat s.rest).map fun (t, broken, rest) =>
      ((s.allowKey broken).moveTo rest).emit (.scalar t true)

/-- Whether a plain scalar can start with a character. -/
def startsPlain (flow : Bool) (c : Char) (rest : Text) : Bool :=
  if c = '-' then !(rest.head?.any isSpacing)
  else if c = '?' || c = ':' then !flow && !atGap rest
  else
    !(isGap c || isFlowIndicator c
      || ['#', '&', '*', '!', '|', '>', '\'', '"', '%', '@', '\x60'].contains c)

/-- Reads the token at the head of the rest, which starts with the given
character. -/
def readToken (s : TokenStream) (c : Char) (rest : Text) :
    Option TokenStream :=
  let flow := s.inFlow
  let lineStart := s.position.column == 0
  if lineStart && c = '%' then
    (directive? rest).bind fun (d, rest) => s.emitOutside (.directive d) rest
  else if lineStart && startsDocumentMark documentStartMark s.rest then
    s.emitOutside .documentStart (rest.drop 2)
  else if lineStart && startsDocumentMark documentEndMark s.rest then
    s.emitOutside .documentEnd (rest.drop 2)
  else if c = '[' then s.openFlow .flowSequenceStart rest
  else if c = '{' then s.openFlow .flowMappingStart rest
  else if c = ']' then s.closeFlow .flowSequenceEnd rest
  else if c = '}' then s.closeFlow .flowMappingEnd rest
  else if c = ',' then s.emitFlowEntry rest
  else if c = '-' && atGap rest then s.emitBlockEntry rest
  else if c = '?' && (flow || atGap rest) then s.emitKey rest
  else if c = ':' && (flow || atGap rest) then s.emitValue rest
  else if c = '*' then
    s.emitContent ((anchorName? rest).map fun (n, r) => (.alias n, r))
  else if c = '&' then
    s.emitContent ((anchorName? rest).map fun (n, r) => (.anchor n, r))
  else if c = '!' then
    s.emitContent ((tag? flow s.rest).map fun (h, r) => (.tag h, r))
  else if c = '|' && !flow then s.emitBlockScalar false rest
  else if c = '>' && !flow then s.emitBlockScalar true rest
  else if c = '\'' || c = '"' then
    s.emitContent
      ((quotedFrom c false rest).map fun (t, r) => (.scalar t false, r))
  else if startsPlain flow c rest then s.emitPlain
  else none

/-- The end of the stream, where all blocks close. -/
def finish (s : TokenStream) : Option TokenStream :=
  (s.closeBlocks (-1)).dropKey

-- ============================================================= streams

/-- The tokens from here to the end of the text. The first argument bounds
their number: every token takes at least one character. -/
def readAll : Nat → TokenStream → Option TokenStream
  | 0, _ => none
  | n + 1, s =>
    s.advance.bind fun s =>
      match s.rest with
      | [] => s.finish
      | c :: rest => (s.readToken c rest).bind (readAll n)

end TokenStream

/-- The tokens of a YAML text. -/
def tokens? (s : Text) : Option (List Token) :=
  if s.all isAllowed then
    let s := unifyBreaks s
    (TokenStream.readAll (s.length + 1) (.start s)).map (·.emitted.reverse)
  else none

end ComponentMarkdown.Yaml
