/-
# Usage and help

What the command shows of itself.
-/

namespace TapeMachine.CommandLine

def usage : String :=
  "usage: bfvm [-h] [--tape-size TAPE_SIZE] [--cell-width \x7b8,16,32\x7d]\n"
    ++ "            [--overflow \x7bwrap,trap\x7d] [--underflow \x7btrap,wrap\x7d]\n"
    ++ "            [--eof \x7bzero,keep,fault\x7d] [--input FILE] [--stats] [-v]\n"
    ++ "            program\n"

def help : String :=
  usage
    ++ "\nRun a Brainfuck program on a bounded, bounds-checked tape.\n"
    ++ "\npositional arguments:\n"
    ++ "  program               Path to the program file\n"
    ++ "\noptions:\n"
    ++ "  -h, --help            show this help message and exit\n"
    ++ "  --tape-size TAPE_SIZE\n"
    ++ "                        Number of tape cells (default 30000)\n"
    ++ "  --cell-width \x7b8,16,32\x7d\n"
    ++ "                        Cell width in bits (default 8)\n"
    ++ "  --overflow \x7bwrap,trap\x7d\n"
    ++ "                        What '+' does on a full cell (default wrap)\n"
    ++ "  --underflow \x7btrap,wrap\x7d\n"
    ++ "                        What '-' does on a zero cell (default trap)\n"
    ++ "  --eof \x7bzero,keep,fault\x7d\n"
    ++ "                        What ',' does at end of input (default zero)\n"
    ++ "  --input FILE          Read ',' input from FILE instead of stdin\n"
    ++ "  --stats               Print timing, step count and the first tape cells to\n"
    ++ "                        stderr\n"
    ++ "  -v, --verbose         More logging (-v info, -vv debug)\n"

/-- What is shown when a command line is refused. -/
def refusal (reason : String) : String :=
  s!"{usage}bfvm: error: {reason}\n"

end TapeMachine.CommandLine
