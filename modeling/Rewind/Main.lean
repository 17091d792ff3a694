import Rewind.Demo

/-- Prints the demonstrations that are named, or both. -/
def main (args : List String) : IO Unit := do
  if args.isEmpty || args.contains "document" then IO.print Rewind.Demo.document
  if args.isEmpty || args.contains "arithmetic" then IO.print Rewind.Demo.arithmetic
