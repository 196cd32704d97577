/-!
# Kinds of tree elements

Every token and every node of a syntax tree has a kind.  The kinds come in a fixed order:
punctuation, operators, reserved words, the tokens that carry text, trivia, and last the
nodes.  The order gives each kind its number, which is its bit in a set of kinds.

A reserved word has exactly one kind, and the reserved words are the only names with a kind
of their own.
-/

namespace LuaFold

/-- What a token or a node of a syntax tree is. -/
inductive Kind where
  | leftParen | rightParen | leftBracket | rightBracket | leftBrace | rightBrace
  | semicolon | colon | doubleColon | comma | dot | dot2 | dot3 | eq
  | plus | minus | star | slash | doubleSlash | percent | caret | hash | amp | tilde
  | pipe | shl | shr | eq2 | neq | lt | lteq | gt | gteq
  | andKw | breakKw | doKw | elseKw | elseifKw | endKw | falseKw | forKw | functionKw
  | gotoKw | ifKw | inKw | localKw | nilKw | notKw | orKw | repeatKw | returnKw
  | thenKw | trueKw | untilKw | whileKw
  | name | number | string
  | whitespace | newline | lineComment | blockComment
  | unknown | eof
  | chunk | block
  | emptyStmt | assignStmt | callStmt | labelStmt | breakStmt | gotoStmt | doStmt
  | whileStmt | repeatStmt | ifStmt | elseIfClause | elseClause | numericForStmt
  | genericForStmt | functionStmt | localFunctionStmt | localStmt | returnStmt
  | funcName | funcBody | paramList | param | localName | attrib | nameList | varList
  | exprList
  | literal | varargExpr | functionExpr | nameRef | parenExpr | fieldExpr | indexExpr
  | callExpr | methodCallExpr | argList | tableExpr | tableField | binaryExpr
  | prefixExpr
  | error | tombstone
deriving DecidableEq, Repr, Inhabited

namespace Kind

/-- Every kind, in order. -/
def all : List Kind :=
  [.leftParen, .rightParen, .leftBracket, .rightBracket, .leftBrace, .rightBrace,
   .semicolon, .colon, .doubleColon, .comma, .dot, .dot2, .dot3, .eq, .plus, .minus,
   .star, .slash, .doubleSlash, .percent, .caret, .hash, .amp, .tilde, .pipe, .shl,
   .shr, .eq2, .neq, .lt, .lteq, .gt, .gteq, .andKw, .breakKw, .doKw, .elseKw,
   .elseifKw, .endKw, .falseKw, .forKw, .functionKw, .gotoKw, .ifKw, .inKw, .localKw,
   .nilKw, .notKw, .orKw, .repeatKw, .returnKw, .thenKw, .trueKw, .untilKw, .whileKw,
   .name, .number, .string, .whitespace, .newline, .lineComment, .blockComment,
   .unknown, .eof, .chunk, .block, .emptyStmt, .assignStmt, .callStmt, .labelStmt,
   .breakStmt, .gotoStmt, .doStmt, .whileStmt, .repeatStmt, .ifStmt, .elseIfClause,
   .elseClause, .numericForStmt, .genericForStmt, .functionStmt, .localFunctionStmt,
   .localStmt, .returnStmt, .funcName, .funcBody, .paramList, .param, .localName,
   .attrib, .nameList, .varList, .exprList, .literal, .varargExpr, .functionExpr,
   .nameRef, .parenExpr, .fieldExpr, .indexExpr, .callExpr, .methodCallExpr, .argList,
   .tableExpr, .tableField, .binaryExpr, .prefixExpr, .error, .tombstone]

/-- The position of a kind in the order. -/
def index (kind : Kind) : Nat :=
  kind.ctorIdx

/-- The written form of a kind, as dumps show it. -/
def label : Kind → String
  | .leftParen => "LEFT_PAREN"
  | .rightParen => "RIGHT_PAREN"
  | .leftBracket => "LEFT_BRACKET"
  | .rightBracket => "RIGHT_BRACKET"
  | .leftBrace => "LEFT_BRACE"
  | .rightBrace => "RIGHT_BRACE"
  | .semicolon => "SEMICOLON"
  | .colon => "COLON"
  | .doubleColon => "DOUBLE_COLON"
  | .comma => "COMMA"
  | .dot => "DOT"
  | .dot2 => "DOT2"
  | .dot3 => "DOT3"
  | .eq => "EQ"
  | .plus => "PLUS"
  | .minus => "MINUS"
  | .star => "STAR"
  | .slash => "SLASH"
  | .doubleSlash => "DOUBLE_SLASH"
  | .percent => "PERCENT"
  | .caret => "CARET"
  | .hash => "HASH"
  | .amp => "AMP"
  | .tilde => "TILDE"
  | .pipe => "PIPE"
  | .shl => "SHL"
  | .shr => "SHR"
  | .eq2 => "EQ2"
  | .neq => "NEQ"
  | .lt => "LT"
  | .lteq => "LTEQ"
  | .gt => "GT"
  | .gteq => "GTEQ"
  | .andKw => "AND_KW"
  | .breakKw => "BREAK_KW"
  | .doKw => "DO_KW"
  | .elseKw => "ELSE_KW"
  | .elseifKw => "ELSEIF_KW"
  | .endKw => "END_KW"
  | .falseKw => "FALSE_KW"
  | .forKw => "FOR_KW"
  | .functionKw => "FUNCTION_KW"
  | .gotoKw => "GOTO_KW"
  | .ifKw => "IF_KW"
  | .inKw => "IN_KW"
  | .localKw => "LOCAL_KW"
  | .nilKw => "NIL_KW"
  | .notKw => "NOT_KW"
  | .orKw => "OR_KW"
  | .repeatKw => "REPEAT_KW"
  | .returnKw => "RETURN_KW"
  | .thenKw => "THEN_KW"
  | .trueKw => "TRUE_KW"
  | .untilKw => "UNTIL_KW"
  | .whileKw => "WHILE_KW"
  | .name => "NAME"
  | .number => "NUMBER"
  | .string => "STRING"
  | .whitespace => "WHITESPACE"
  | .newline => "NEWLINE"
  | .lineComment => "LINE_COMMENT"
  | .blockComment => "BLOCK_COMMENT"
  | .unknown => "UNKNOWN"
  | .eof => "EOF"
  | .chunk => "CHUNK"
  | .block => "BLOCK"
  | .emptyStmt => "EMPTY_STMT"
  | .assignStmt => "ASSIGN_STMT"
  | .callStmt => "CALL_STMT"
  | .labelStmt => "LABEL_STMT"
  | .breakStmt => "BREAK_STMT"
  | .gotoStmt => "GOTO_STMT"
  | .doStmt => "DO_STMT"
  | .whileStmt => "WHILE_STMT"
  | .repeatStmt => "REPEAT_STMT"
  | .ifStmt => "IF_STMT"
  | .elseIfClause => "ELSE_IF_CLAUSE"
  | .elseClause => "ELSE_CLAUSE"
  | .numericForStmt => "NUMERIC_FOR_STMT"
  | .genericForStmt => "GENERIC_FOR_STMT"
  | .functionStmt => "FUNCTION_STMT"
  | .localFunctionStmt => "LOCAL_FUNCTION_STMT"
  | .localStmt => "LOCAL_STMT"
  | .returnStmt => "RETURN_STMT"
  | .funcName => "FUNC_NAME"
  | .funcBody => "FUNC_BODY"
  | .paramList => "PARAM_LIST"
  | .param => "PARAM"
  | .localName => "LOCAL_NAME"
  | .attrib => "ATTRIB"
  | .nameList => "NAME_LIST"
  | .varList => "VAR_LIST"
  | .exprList => "EXPR_LIST"
  | .literal => "LITERAL"
  | .varargExpr => "VARARG_EXPR"
  | .functionExpr => "FUNCTION_EXPR"
  | .nameRef => "NAME_REF"
  | .parenExpr => "PAREN_EXPR"
  | .fieldExpr => "FIELD_EXPR"
  | .indexExpr => "INDEX_EXPR"
  | .callExpr => "CALL_EXPR"
  | .methodCallExpr => "METHOD_CALL_EXPR"
  | .argList => "ARG_LIST"
  | .tableExpr => "TABLE_EXPR"
  | .tableField => "TABLE_FIELD"
  | .binaryExpr => "BINARY_EXPR"
  | .prefixExpr => "PREFIX_EXPR"
  | .error => "ERROR"
  | .tombstone => "TOMBSTONE"

/-- The kind with a written form. -/
def ofLabel? (written : String) : Option Kind :=
  all.find? fun kind => kind.label = written

/-- Whether a token of this kind is blank space, a line break or a comment. -/
def isTrivia : Kind → Bool
  | .whitespace | .newline | .lineComment | .blockComment => true
  | _ => false

/-- The reserved words with their kinds. -/
def reservedWords : List (List Char × Kind) :=
  [("and".toList, .andKw),
   ("break".toList, .breakKw),
   ("do".toList, .doKw),
   ("else".toList, .elseKw),
   ("elseif".toList, .elseifKw),
   ("end".toList, .endKw),
   ("false".toList, .falseKw),
   ("for".toList, .forKw),
   ("function".toList, .functionKw),
   ("goto".toList, .gotoKw),
   ("if".toList, .ifKw),
   ("in".toList, .inKw),
   ("local".toList, .localKw),
   ("nil".toList, .nilKw),
   ("not".toList, .notKw),
   ("or".toList, .orKw),
   ("repeat".toList, .repeatKw),
   ("return".toList, .returnKw),
   ("then".toList, .thenKw),
   ("true".toList, .trueKw),
   ("until".toList, .untilKw),
   ("while".toList, .whileKw)]

/-- Whether a kind belongs to a reserved word. -/
def isKeyword : Kind → Bool
  | .andKw | .breakKw | .doKw | .elseKw | .elseifKw | .endKw | .falseKw | .forKw
  | .functionKw | .gotoKw | .ifKw | .inKw | .localKw | .nilKw | .notKw | .orKw
  | .repeatKw | .returnKw | .thenKw | .trueKw | .untilKw | .whileKw => true
  | _ => false

/-- The kind of a reserved word, if the word is reserved. -/
def ofKeyword? (word : List Char) : Option Kind :=
  (reservedWords.find? fun entry => entry.1 = word).map Prod.snd

/-- How messages call a token of this kind. -/
def describe : Kind → String
  | .leftParen => "`(`"
  | .rightParen => "`)`"
  | .leftBracket => "`[`"
  | .rightBracket => "`]`"
  | .leftBrace => "`\x7b`"
  | .rightBrace => "`\x7d`"
  | .semicolon => "`;`"
  | .colon => "`:`"
  | .doubleColon => "`::`"
  | .comma => "`,`"
  | .dot => "`.`"
  | .dot2 => "`..`"
  | .dot3 => "`...`"
  | .eq => "`=`"
  | .gt => "`>`"
  | .doKw => "`do`"
  | .endKw => "`end`"
  | .inKw => "`in`"
  | .thenKw => "`then`"
  | .untilKw => "`until`"
  | .name => "identifier"
  | .number => "number"
  | .string => "string"
  | .eof => "end of file"
  | _ => "token"

end Kind

end LuaFold
