/-!
# Opcodes

Every operation of the machine has a byte, a mnemonic and a layout of operands. Operations that
differ only in what they compute are one constructor with an argument. Bytes without an operation
have no operands.
-/

namespace RegisterMachine

/-- How an instruction lays out its operands. -/
inductive Shape where
  | none
  | oneReg
  | twoReg
  | threeReg
  | imm
  | immReg
  deriving DecidableEq, Repr

namespace Shape

def registerCount : Shape → Nat
  | .none | .imm => 0
  | .oneReg | .immReg => 1
  | .twoReg => 2
  | .threeReg => 3

def hasImmediate : Shape → Bool
  | .imm | .immReg => true
  | _ => false

def operandCount (shape : Shape) : Nat :=
  shape.registerCount + if shape.hasImmediate then 1 else 0

def name : Shape → String
  | .none => "None"
  | .oneReg => "OneReg"
  | .twoReg => "TwoReg"
  | .threeReg => "ThreeReg"
  | .imm => "Imm"
  | .immReg => "ImmReg"

end Shape

/-- How two values have to compare for a jump. -/
inductive Condition where
  | eq
  | ne
  | lt
  | le
  | gt
  | ge
  deriving DecidableEq, Repr

/-- Operations on two truth values. -/
inductive BoolBinary where
  | and
  | or
  | xor
  | cmp
  deriving DecidableEq, Repr

/-- Operations on two integers. -/
inductive IntBinary where
  | add
  | sub
  | mul
  | div
  | mod
  | rem
  | shl
  | shr
  | lsl
  | lsr
  | and
  | or
  | xor
  | cmp
  | pow
  deriving DecidableEq, Repr

/-- Operations on two floats. -/
inductive FloatBinary where
  | add
  | sub
  | mul
  | div
  | pow
  | atan2
  | cmp
  deriving DecidableEq, Repr

/-- Functions of one float. -/
inductive FloatUnary where
  | sqrt
  | exp
  | log2
  | log10
  | ln
  | sin
  | cos
  | tan
  | asin
  | acos
  | atan
  | neg
  deriving DecidableEq, Repr

/-- The operations of the machine. -/
inductive Opcode where
  | nop
  | breakpoint
  | halt
  | loadNull
  | loadFalse
  | loadTrue
  | loadArgIndirect
  | loadArg
  | loadLocal
  | loadLocalIndirect
  | loadField
  | loadFieldIndirect
  | loadConst
  | loadConstIndirect
  | loadInt
  | storeLocal
  | storeLocalIndirect
  | storeField
  | storeFieldIndirect
  | move
  | stackPop
  | stackPush
  | stackPeek
  | stackDup
  | jump
  | jumpIf (condition : Condition)
  | jumpIfZero (condition : Condition)
  | jumpIndirect
  | jumpIfZeroIndirect (condition : Condition)
  | returnValue
  | returnNull
  | returnSelf
  | reserveArgs
  | reserveArgsIndirect
  | setArg
  | setArgIndirect
  | call
  | localCall
  | dynamicCall
  | setThis
  | setModule
  | getThis
  | getModule
  | boolBinary (op : BoolBinary)
  | boolNot
  | intBinary (op : IntBinary)
  | intNeg
  | intCpl
  | floatBinary (op : FloatBinary)
  | floatUnary (op : FloatUnary)
  | boolToInt
  | intToBool
  | intToFloat
  | floatToInt
  | newObject
  | extend
  | boxBool
  | boxInt
  | boxFloat
  | unbox
  | lock
  | unlock
  | arrayNew
  | arrayNewIndirect
  | arrayGet
  | arraySet
  | arrayDelete
  | newTry
  | newTryIndirect
  | newTryNoFinal
  | addCatch
  | addCatchIndirect
  | throw
  | endTry
  | intInc
  | intDec
  | floatInc
  | floatDec
  | declareFunction
  | declareFunctionIndirect
  | endFunction
  deriving DecidableEq, Repr

namespace Opcode

/-- What the format fixes about an opcode. -/
structure Info where
  byte : UInt8
  mnemonic : String
  shape : Shape

def info : Opcode → Info
  | .nop => ⟨1, "NOP", .none⟩
  | .breakpoint => ⟨2, "BREAKPOINT", .none⟩
  | .halt => ⟨3, "HALT", .none⟩
  | .loadNull => ⟨10, "LOAD_NULL", .oneReg⟩
  | .loadFalse => ⟨11, "LOAD_FALSE", .oneReg⟩
  | .loadTrue => ⟨12, "LOAD_TRUE", .oneReg⟩
  | .loadArgIndirect => ⟨13, "LOAD_ARG_INDIRECT", .twoReg⟩
  | .loadArg => ⟨14, "LOAD_ARG", .immReg⟩
  | .loadLocal => ⟨15, "LOAD_LOCAL", .immReg⟩
  | .loadLocalIndirect => ⟨16, "LOAD_LOCAL_INDIRECT", .twoReg⟩
  | .loadField => ⟨17, "LOAD_FIELD", .immReg⟩
  | .loadFieldIndirect => ⟨18, "LOAD_FIELD_INDIRECT", .threeReg⟩
  | .loadConst => ⟨19, "LOAD_LOCAL_CONST", .immReg⟩
  | .loadConstIndirect => ⟨20, "LOAD_LOCAL_CONST_INDIRECT", .twoReg⟩
  | .loadInt => ⟨21, "LOAD_INT_CONST", .immReg⟩
  | .storeLocal => ⟨30, "STORE_LOCAL", .immReg⟩
  | .storeLocalIndirect => ⟨31, "STORE_LOCAL_INDIRECT", .twoReg⟩
  | .storeField => ⟨32, "STORE_FIELD", .immReg⟩
  | .storeFieldIndirect => ⟨33, "STORE_FIELD_INDIRECT", .threeReg⟩
  | .move => ⟨40, "MOVE", .twoReg⟩
  | .stackPop => ⟨50, "STACK_POP", .oneReg⟩
  | .stackPush => ⟨51, "STACK_PUSH", .oneReg⟩
  | .stackPeek => ⟨52, "STACK_PEEK", .oneReg⟩
  | .stackDup => ⟨53, "STACK_DUP", .none⟩
  | .jump => ⟨60, "JUMP", .imm⟩
  | .jumpIf .eq => ⟨61, "JUMP_EQ_REG", .threeReg⟩
  | .jumpIf .ne => ⟨62, "JUMP_NE_REG", .threeReg⟩
  | .jumpIf .lt => ⟨63, "JUMP_LT_REG", .threeReg⟩
  | .jumpIf .le => ⟨64, "JUMP_LE_REG", .threeReg⟩
  | .jumpIf .gt => ⟨65, "JUMP_GT_REG", .threeReg⟩
  | .jumpIf .ge => ⟨66, "JUMP_GE_REG", .threeReg⟩
  | .jumpIfZero .eq => ⟨67, "JUMP_EQ_ZERO", .immReg⟩
  | .jumpIfZero .ne => ⟨68, "JUMP_NE_ZERO", .immReg⟩
  | .jumpIfZero .lt => ⟨69, "JUMP_LT_ZERO", .immReg⟩
  | .jumpIfZero .le => ⟨70, "JUMP_LE_ZERO", .immReg⟩
  | .jumpIfZero .gt => ⟨71, "JUMP_GT_ZERO", .immReg⟩
  | .jumpIfZero .ge => ⟨72, "JUMP_GE_ZERO", .immReg⟩
  | .jumpIndirect => ⟨73, "JUMP_INDIRECT", .oneReg⟩
  | .jumpIfZeroIndirect .eq => ⟨80, "JUMP_EQ_ZERO_INDIRECT", .twoReg⟩
  | .jumpIfZeroIndirect .ne => ⟨81, "JUMP_NE_ZERO_INDIRECT", .twoReg⟩
  | .jumpIfZeroIndirect .lt => ⟨82, "JUMP_LT_ZERO_INDIRECT", .twoReg⟩
  | .jumpIfZeroIndirect .le => ⟨83, "JUMP_LE_ZERO_INDIRECT", .twoReg⟩
  | .jumpIfZeroIndirect .gt => ⟨84, "JUMP_GT_ZERO_INDIRECT", .twoReg⟩
  | .jumpIfZeroIndirect .ge => ⟨85, "JUMP_GE_ZERO_INDIRECT", .twoReg⟩
  | .returnValue => ⟨90, "RETURN", .oneReg⟩
  | .returnNull => ⟨91, "RETURN_NULL", .none⟩
  | .returnSelf => ⟨92, "RETURN_SELF", .none⟩
  | .reserveArgs => ⟨100, "RESERVE_ARGS", .imm⟩
  | .reserveArgsIndirect => ⟨101, "RESERVE_ARGS_INDIRECT", .oneReg⟩
  | .setArg => ⟨102, "SET_ARG", .immReg⟩
  | .setArgIndirect => ⟨103, "SET_ARG_INDIRECT", .twoReg⟩
  | .call => ⟨104, "CALL", .twoReg⟩
  | .localCall => ⟨105, "LOCAL_CALL", .twoReg⟩
  | .dynamicCall => ⟨106, "DYNAMIC_CALL", .threeReg⟩
  | .setThis => ⟨110, "SET_THIS", .oneReg⟩
  | .setModule => ⟨111, "SET_MODULE", .oneReg⟩
  | .getThis => ⟨120, "GET_THIS", .oneReg⟩
  | .getModule => ⟨121, "GET_MODULE", .oneReg⟩
  | .boolBinary .and => ⟨130, "BOOL_AND", .threeReg⟩
  | .boolBinary .or => ⟨131, "BOOL_OR", .threeReg⟩
  | .boolBinary .xor => ⟨132, "BOOL_XOR", .threeReg⟩
  | .boolBinary .cmp => ⟨133, "BOOL_CMP", .threeReg⟩
  | .boolNot => ⟨134, "BOOL_NOT", .twoReg⟩
  | .intBinary .add => ⟨140, "INT_ADD", .threeReg⟩
  | .intBinary .sub => ⟨141, "INT_SUB", .threeReg⟩
  | .intBinary .mul => ⟨142, "INT_MUL", .threeReg⟩
  | .intBinary .div => ⟨143, "INT_DIV", .threeReg⟩
  | .intBinary .mod => ⟨144, "INT_MOD", .threeReg⟩
  | .intBinary .rem => ⟨145, "INT_REM", .threeReg⟩
  | .intBinary .shl => ⟨146, "INT_SHL", .threeReg⟩
  | .intBinary .shr => ⟨147, "INT_SHR", .threeReg⟩
  | .intBinary .lsl => ⟨148, "INT_LSL", .threeReg⟩
  | .intBinary .lsr => ⟨149, "INT_LSR", .threeReg⟩
  | .intBinary .and => ⟨150, "INT_AND", .threeReg⟩
  | .intBinary .or => ⟨151, "INT_OR", .threeReg⟩
  | .intBinary .xor => ⟨152, "INT_XOR", .threeReg⟩
  | .intBinary .cmp => ⟨153, "INT_CMP", .threeReg⟩
  | .intNeg => ⟨154, "INT_NEG", .twoReg⟩
  | .intCpl => ⟨155, "INT_CPL", .twoReg⟩
  | .intBinary .pow => ⟨156, "INT_POW", .threeReg⟩
  | .floatBinary .add => ⟨160, "FLOAT_ADD", .threeReg⟩
  | .floatBinary .sub => ⟨161, "FLOAT_SUB", .threeReg⟩
  | .floatBinary .mul => ⟨162, "FLOAT_MUL", .threeReg⟩
  | .floatBinary .div => ⟨163, "FLOAT_DIV", .threeReg⟩
  | .floatUnary .sqrt => ⟨164, "FLOAT_SQRT", .twoReg⟩
  | .floatUnary .exp => ⟨165, "FLOAT_EXP", .twoReg⟩
  | .floatBinary .pow => ⟨166, "FLOAT_POW", .threeReg⟩
  | .floatUnary .log2 => ⟨167, "FLOAT_LOG2", .twoReg⟩
  | .floatUnary .log10 => ⟨168, "FLOAT_LOG", .twoReg⟩
  | .floatUnary .ln => ⟨169, "FLOAT_LN", .twoReg⟩
  | .floatUnary .sin => ⟨170, "FLOAT_SIN", .twoReg⟩
  | .floatUnary .cos => ⟨171, "FLOAT_COS", .twoReg⟩
  | .floatUnary .tan => ⟨172, "FLOAT_TAN", .twoReg⟩
  | .floatUnary .asin => ⟨173, "FLOAT_ASIN", .twoReg⟩
  | .floatUnary .acos => ⟨174, "FLOAT_ACOS", .twoReg⟩
  | .floatUnary .atan => ⟨175, "FLOAT_ATAN", .twoReg⟩
  | .floatBinary .atan2 => ⟨176, "FLOAT_ATAN2", .threeReg⟩
  | .floatUnary .neg => ⟨177, "FLOAT_NEG", .twoReg⟩
  | .floatBinary .cmp => ⟨178, "FLOAT_CMP", .threeReg⟩
  | .boolToInt => ⟨180, "BOOL2INT", .twoReg⟩
  | .intToBool => ⟨181, "INT2BOOL", .twoReg⟩
  | .intToFloat => ⟨182, "INT2FLOAT", .twoReg⟩
  | .floatToInt => ⟨183, "FLOAT2INT", .twoReg⟩
  | .newObject => ⟨190, "NEW", .oneReg⟩
  | .extend => ⟨191, "EXTEND", .twoReg⟩
  | .boxBool => ⟨200, "BOX_BOOL", .twoReg⟩
  | .boxInt => ⟨201, "BOX_INT", .twoReg⟩
  | .boxFloat => ⟨202, "BOX_FLOAT", .twoReg⟩
  | .unbox => ⟨203, "UNBOX", .twoReg⟩
  | .lock => ⟨210, "LOCK", .oneReg⟩
  | .unlock => ⟨211, "UNLOCK", .oneReg⟩
  | .arrayNew => ⟨220, "ARRAY_NEW", .immReg⟩
  | .arrayNewIndirect => ⟨221, "ARRAY_NEW_INDIRECT", .twoReg⟩
  | .arrayGet => ⟨222, "ARRAY_GET", .threeReg⟩
  | .arraySet => ⟨223, "ARRAY_SET", .threeReg⟩
  | .arrayDelete => ⟨224, "ARRAY_DELETE", .twoReg⟩
  | .newTry => ⟨230, "NEW_TRY_CONTEXT", .imm⟩
  | .newTryIndirect => ⟨231, "NEW_TRY_CONTEXT_INDIRECT", .oneReg⟩
  | .newTryNoFinal => ⟨232, "NEW_TRY_CONTEXT_NO_FINAL", .none⟩
  | .addCatch => ⟨233, "ADD_CATCH", .immReg⟩
  | .addCatchIndirect => ⟨234, "ADD_CATCH_INDIRECT", .twoReg⟩
  | .throw => ⟨235, "THROW", .oneReg⟩
  | .endTry => ⟨236, "END_TRY_CONTEXT", .none⟩
  | .intInc => ⟨240, "INT_INC", .oneReg⟩
  | .intDec => ⟨241, "INT_DEC", .oneReg⟩
  | .floatInc => ⟨242, "FLOAT_INC", .oneReg⟩
  | .floatDec => ⟨243, "FLOAT_DEC", .oneReg⟩
  | .declareFunction => ⟨250, "DECLARE_FUNCTION", .immReg⟩
  | .declareFunctionIndirect => ⟨251, "DECLARE_FUNCTION_INDIRECT", .twoReg⟩
  | .endFunction => ⟨252, "END_FUNCTION", .none⟩

def byte (op : Opcode) : UInt8 :=
  op.info.byte

def name (op : Opcode) : String :=
  op.info.mnemonic

def shape (op : Opcode) : Shape :=
  op.info.shape

def all : List Opcode :=
  [.nop, .breakpoint, .halt, .loadNull, .loadFalse, .loadTrue, .loadArgIndirect, .loadArg,
   .loadLocal, .loadLocalIndirect, .loadField, .loadFieldIndirect, .loadConst, .loadConstIndirect,
   .loadInt, .storeLocal, .storeLocalIndirect, .storeField, .storeFieldIndirect, .move, .stackPop,
   .stackPush, .stackPeek, .stackDup, .jump, .jumpIf .eq, .jumpIf .ne, .jumpIf .lt, .jumpIf .le,
   .jumpIf .gt, .jumpIf .ge, .jumpIfZero .eq, .jumpIfZero .ne, .jumpIfZero .lt, .jumpIfZero .le,
   .jumpIfZero .gt, .jumpIfZero .ge, .jumpIndirect, .jumpIfZeroIndirect .eq,
   .jumpIfZeroIndirect .ne, .jumpIfZeroIndirect .lt, .jumpIfZeroIndirect .le,
   .jumpIfZeroIndirect .gt, .jumpIfZeroIndirect .ge, .returnValue, .returnNull, .returnSelf,
   .reserveArgs, .reserveArgsIndirect, .setArg, .setArgIndirect, .call, .localCall, .dynamicCall,
   .setThis, .setModule, .getThis, .getModule, .boolBinary .and, .boolBinary .or,
   .boolBinary .xor, .boolBinary .cmp, .boolNot, .intBinary .add, .intBinary .sub,
   .intBinary .mul, .intBinary .div, .intBinary .mod, .intBinary .rem, .intBinary .shl,
   .intBinary .shr, .intBinary .lsl, .intBinary .lsr, .intBinary .and, .intBinary .or,
   .intBinary .xor, .intBinary .cmp, .intNeg, .intCpl, .intBinary .pow, .floatBinary .add,
   .floatBinary .sub, .floatBinary .mul, .floatBinary .div, .floatUnary .sqrt, .floatUnary .exp,
   .floatBinary .pow, .floatUnary .log2, .floatUnary .log10, .floatUnary .ln, .floatUnary .sin,
   .floatUnary .cos, .floatUnary .tan, .floatUnary .asin, .floatUnary .acos, .floatUnary .atan,
   .floatBinary .atan2, .floatUnary .neg, .floatBinary .cmp, .boolToInt, .intToBool, .intToFloat,
   .floatToInt, .newObject, .extend, .boxBool, .boxInt, .boxFloat, .unbox, .lock, .unlock,
   .arrayNew, .arrayNewIndirect, .arrayGet, .arraySet, .arrayDelete, .newTry, .newTryIndirect,
   .newTryNoFinal, .addCatch, .addCatchIndirect, .throw, .endTry, .intInc, .intDec, .floatInc,
   .floatDec, .declareFunction, .declareFunctionIndirect, .endFunction]

def ofByte? (byte : UInt8) : Option Opcode :=
  all.find? fun op => op.byte == byte

/-- The opcode of a mnemonic, which is upper case. -/
def ofName? (name : String) : Option Opcode :=
  all.find? fun op => op.name == name

/-- The operand layout of a byte; a byte without an opcode has no operands. -/
def shapeOfByte (byte : UInt8) : Shape :=
  match ofByte? byte with
  | some op => op.shape
  | Option.none => .none

/-! ## Classes of opcodes -/

/-- Whether the operation may continue elsewhere than at the next instruction. -/
def isJump : Opcode → Bool
  | .jump | .jumpIndirect | .jumpIf _ | .jumpIfZero _ | .jumpIfZeroIndirect _ => true
  | _ => false

def hasTargetImmediate : Opcode → Bool
  | .jump | .jumpIfZero _ | .newTry | .addCatch => true
  | _ => false

def isCall : Opcode → Bool
  | .call | .localCall | .dynamicCall => true
  | _ => false

/-- Whether the operation leaves the frame with a result. -/
def isReturn : Opcode → Bool
  | .returnValue | .returnNull | .returnSelf | .endFunction => true
  | _ => false

/-- Whether the next instruction is never executed straight after this one. -/
def isTerminator (op : Opcode) : Bool :=
  op.isReturn ||
    match op with
    | .halt | .jump | .jumpIndirect | .throw => true
    | _ => false

end Opcode

end RegisterMachine
