import ZMachine.Instruction.Form

/-!
# Opcodes

An opcode is a number in one of the five opcode tables. This module holds what a decoder must know
of it in a given story version: its name, and whether a store byte, a branch or an inline string
follows its operands.
-/

namespace ZMachine

/-- A number in an opcode table. -/
structure Opcode where
  count : OperandCount
  number : UInt8
  deriving DecidableEq, Repr

namespace Opcode

/-! ## 1. Names -/

/-- Names of the opcodes without operands, those of version 5 and later where they differ. -/
def names0 : List String :=
  ["rtrue", "rfalse", "print", "print_ret", "nop", "save", "restore", "restart", "ret_popped",
    "catch", "quit", "new_line", "show_status", "verify", "extended", "piracy"]

/-- Names of the opcodes with one operand, those of version 5 and later where they differ. -/
def names1 : List String :=
  ["jz", "get_sibling", "get_child", "get_parent", "get_prop_len", "inc", "dec", "print_addr",
    "call_1s", "remove_obj", "print_obj", "ret", "jump", "print_paddr", "load", "call_1n"]

/-- Names of the opcodes with two operands. -/
def names2 : List String :=
  ["unknown_2op", "je", "jl", "jg", "dec_chk", "inc_chk", "jin", "test", "or", "and", "test_attr",
    "set_attr", "clear_attr", "store", "insert_obj", "loadw", "loadb", "get_prop", "get_prop_addr",
    "get_next_prop", "add", "sub", "mul", "div", "mod", "call_2s", "call_2n", "set_colour", "throw"]

/-- Names of the opcodes with a variable number of operands, those of version 5 and later where they
differ. -/
def namesVar : List String :=
  ["call_vs", "storew", "storeb", "put_prop", "aread", "print_char", "print_num", "random", "push",
    "pull", "split_window", "set_window", "call_vs2", "erase_window", "erase_line", "set_cursor",
    "get_cursor", "set_text_style", "buffer_mode", "output_stream", "input_stream", "sound_effect",
    "read_char", "scan_table", "not", "call_vn", "call_vn2", "tokenise", "encode_text",
    "copy_table", "print_table", "check_arg_count"]

/-- Names of the extended opcodes. -/
def namesExt : List String :=
  ["save", "restore", "log_shift", "art_shift", "set_font", "draw_picture", "picture_data",
    "erase_picture", "set_margins", "save_undo", "restore_undo", "print_unicode", "check_unicode",
    "set_true_colour", "unknown_ext", "unknown_ext", "move_window", "window_size", "window_style",
    "get_wind_prop", "scroll_window", "pop_stack", "read_mouse", "mouse_window", "push_stack",
    "put_wind_prop", "print_form", "make_menu", "picture_table", "buffer_screen"]

/-- The name of an opcode in a story version. -/
def name (op : Opcode) (version : UInt8) : String :=
  let n := op.number.toNat
  match op.count with
  | .op0 => if n = 0x09 ∧ version ≤ 4 then "pop" else names0.getD n "unknown_0op"
  | .op1 => if n = 0x0f ∧ version ≤ 4 then "not" else names1.getD n "unknown_1op"
  | .op2 => names2.getD n "unknown_2op"
  | .var =>
      if n = 0x00 ∧ version ≤ 3 then "call"
      else if n = 0x04 ∧ version ≤ 4 then "sread"
      else namesVar.getD n "unknown_var"
  | .ext => namesExt.getD n "unknown_ext"

/-! ## 2. What follows the operands -/

/-- Whether a byte names the variable that receives the result. -/
def storesResult (op : Opcode) (version : UInt8) : Bool :=
  let n := op.number.toNat
  match op.count with
  | .op0 => ((n == 0x05 || n == 0x06) && version == 4) || (n == 0x09 && version ≥ 5)
  | .op1 => (1 ≤ n && n ≤ 4) || n == 0x08 || n == 0x0e || (n == 0x0f && version ≤ 4)
  | .op2 => n == 0x08 || n == 0x09 || (0x0f ≤ n && n ≤ 0x19)
  | .var =>
      [0x00, 0x07, 0x0c, 0x16, 0x17, 0x18].contains n || (n == 0x04 && version ≥ 5) ||
        (n == 0x09 && version == 6)
  | .ext => n ≤ 4 || [0x09, 0x0a, 0x0c, 0x13, 0x1d].contains n

/-- Whether a branch follows. -/
def hasBranch (op : Opcode) (version : UInt8) : Bool :=
  let n := op.number.toNat
  match op.count with
  | .op0 => ((n == 0x05 || n == 0x06) && version ≤ 3) || n == 0x0d || n == 0x0f
  | .op1 => n ≤ 2
  | .op2 => (1 ≤ n && n ≤ 7) || n == 0x0a
  | .var => n == 0x17 || n == 0x1f
  | .ext => n == 0x06 || n == 0x18 || n == 0x1b

/-- Whether an encoded string follows. -/
def hasText (op : Opcode) : Bool :=
  op.count == .op0 && (op.number == 0x02 || op.number == 0x03)

end Opcode

end ZMachine
