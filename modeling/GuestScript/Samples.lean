/-!
# Sample programs

Small source texts that show the language, and one that does not follow its grammar.
-/

namespace GuestScript.Samples

/-- Print the first argument. -/
def echo : String :=
  "namespace demo \x7b
    type Program \x7b
        static fn main(args: [str]) \x7b
            io::print_line(args[0]);
        \x7d
    \x7d
\x7d
"

/-- Filter the arguments without enumerating the result, then print the first argument and a number
whose type is only known when the program runs. -/
def filteredEcho : String :=
  "use seq;

namespace demo \x7b
    type Program \x7b
        static fn main(args: [str]) \x7b
            seq::filter(args, |a| !text::is_empty(a));
            io::print_line(args[0]);
            let number: dyn = 1;
            io::print_line(number);
        \x7d
    \x7d
\x7d
"

/-- Start with a method of an instance. -/
def greeter : String :=
  "namespace demo \x7b
    type Greeter \x7b
        field greeting: str = \"hello\";

        fn main(args: [str]) \x7b
            io::print_line(self.greeting + \" \" + args[0]);
        \x7d
    \x7d
\x7d
"

/-- A text that lacks its last closing brace. -/
def unbalanced : String :=
  "namespace demo \x7b
    type Program \x7b
        static fn main(args: [str]) \x7b
            io::print_line(args[0]);
        \x7d
\x7d
"

end GuestScript.Samples
