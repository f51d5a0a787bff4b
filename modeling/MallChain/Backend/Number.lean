import MallChain.Lib.Binary64

namespace Backend

-- `Math.round`
def mathRound (x : ℚ) : ℤ :=
  ⌊x + 1 / 2⌋

end Backend
