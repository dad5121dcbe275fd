import EntropyGame.CommandLine.Arguments

namespace EntropyGame.CommandLine

end EntropyGame.CommandLine
