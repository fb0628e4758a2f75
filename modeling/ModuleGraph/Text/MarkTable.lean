import ModuleGraph.Text.PropertyTable

/-!
# Table of marks

The characters that are marks, which belong to the character before them.
-/

namespace ModuleGraph.Text

/-- Marks have the letter `m`, all others the letter `v`. -/
def marks : PropertyTable :=
  .ofText 0 "
    300v 70m 113v 7m 107v 2dm 1v 1m 1v 2m 1v 2m 1v 1m 48v bm 30v 15m 10v 1m 65v 7m 2v 6m 2v 2m 1v
    4m 23v 1m 1ev 1bm 5bv bm 3av 9m 9v 1m 18v 4m 1v 9m 1v 3m 1v 5m 2bv 3m 3bv 9m 2av 18m 1v 21m
    36v 3m 1v 12m 1v 7m av 2m 1dv 3m 38v 1m 1v 7m 2v 2m 2v 3m 9v 1m av 2m 1av 1m 2v 3m 38v 1m 1v
    5m 4v 2m 2v 3m 3v 1m 1ev 2m 3v 1m bv 3m 38v 1m 1v 8m 1v 3m 1v 3m 14v 2m 16v 6m 1v 3m 38v 1m 1v
    7m 2v 2m 2v 3m 7v 3m av 2m 1ev 1m 3bv 5m 3v 3m 1v 4m 9v 1m 28v 5m 37v 1m 1v 7m 1v 3m 1v 4m 7v
    2m bv 2m 1dv 3m 38v 1m 1v 7m 1v 3m 1v 4m 7v 2m bv 2m fv 1m cv 4m 37v 2m 1v 7m 1v 3m 1v 4m 9v
    1m av 2m 1dv 3m 46v 1m 4v 6m 1v 1m 1v 8m 12v 2m 3dv 1m 2v 7m cv 8m 62v 1m 2v 9m bv 7m 49v 2m
    1bv 1m 1v 1m 1v 1m 4v 2m 31v 14m 1v 2m 5v bm 1v 24m 9v 1m 64v 14m 17v 4m 4v 3m 1v 3m 2v 7m 3v
    4m dv cm 1v 1m av 4m 2bfv 3m 3b2v 4m 1cv 3m 1dv 2m 1ev 2m 40v 20m 9v 1m 2dv 3m 1v 1m 75v 2m
    22v 1m 76v cm 4v cm dbv 5m 39v am 1v 1dm 2v 1m 30v 2em 2v cm 14v 5m 2fv 11m 26v 9m cv 3m 1ev
    dm 38v em 30v 14m 98v 3m 1v 15m 4v 1m 6v 1m 2v 3m c6v 40m 2d0v 21m bfev 3m 8dv 1m 60v 20m 22av
    6m 69v 2m 75d4v 4m 1v am 20v 2m 50v 2m 110v 1m 3v 1m 4v 1m 17v 5m 4v 1m 53v 2m 32v 12m 1av 12m
    dv 1m 26v 8m 19v dm 2cv 4m 2fv em 24v 1m 43v em cv 1m 8v 2m 2dv 3m 32v 1m 1v 3m 2v 2m 5v 2m 1v
    1m 29v 5m 5v 2m ecv 8m 1v 2m 4f30v 1m 2e1v 10m 10v 10m 3cdv 1m e2v 1m 95v 5m 686v 3m 1v 2m 5v
    4m 28v 3m 4v 1m a5v 2m 23dv 4m 41v 5m 13dv 2m 4dv 6m 46v bm 31v 4m 7av 3m 35v fm 29v 1m 2v 2m
    av 4m 2dv bm 7v 1m 3dv 3m 24v em 10v 2m 2cv 1m cv 3m 30v em 8v 4m 1v 2m 5cv cm 6v 1m 2v 1m 9dv
    cm 15v 4m 37v 2m 1v 7m 2v 2m 2v 3m 9v 1m av 2m 2v 7m 3v 5m 43v 9m 1v 1m 2v 1m 1v 4m 1v 5m 1v
    1m ev 2m 52v 12m 17v 1m 51v 14m ebv 7m 2v 9m 1bv 2m 52v 11m 6av dm 65v fm 100v fm f5v 6m 1v 2m
    2v 4m 1v 1m 1v 2m 8dv 7m 2v 7m 3v 1m 1cv am 28v 7m 1v 4m 8v 1m 9v bm 2ev 10m c6v 8m c7v 8m 1v
    8m 52v 16m 1v em 7av 6m 3v 1m 1v 2m 1v 7m 1v 1m 42v 5m 1v 2m 1v 5m 15bv 4m 9v 2m 1v 1m 30v 7m
    3v 5m 17v 1m 14e5v 1m 6v fm 2cc8v 12m 9c0v 5m 3bv 7m 418v 1m 1v 37m 7v 4m 51v 1m bv 2m 4cabv
    2m 1261v 2em 2v 17m 21ev 5m 3v 6m 8v 8m 2v 7m 1ev 4m 94v 3m 7bbv 37m 4v 32m 8v 1m ev 1m 16v 5m
    1v fm 550v 7m 1v 11m 2v 7m 1v 2m 1v 5m 64v 1m a0v 7m 177v 1m 3dv 4m 1fcv 4m fev 2m f3v 1m 2v
    1m 7v 2m 5v 1m 1dav 7m 6dv 7m c17b5v f0m 2fe10v"

end ModuleGraph.Text
