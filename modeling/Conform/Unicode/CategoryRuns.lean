/-! The general categories of all code points in order, as run lengths. A letter names a
category and a number before it tells how many code points in a row have it; without a
number there is one. -/

namespace Conform

namespace Unicode

def categoryRuns : List String := [
    "32zw3rt3rnorsrm2r10i2r3s2r26anroulu26bnsos33zwr4tvruvepsAvuvs2kub2rukeq3kr23as7a24bs8b",
    "abababababababababababababababababababababababababababa2babababababababa2babababababab",
    "ababababababababababababababababab2ababa3b2abab2ab3a2b4ab2ab3a3b2ab2ababab2aba2bab2ab",
    "3abab2a2bea3b4eacbacbacbabababababababa2bababababababababa2bacbab3abababababababababab",
    "abababababababababababababababababababa7b2ab2a2bab4ababababa69b2e26b18d4u12d14u5d7udud",
    "17u69fE29f13Eababduab2Dd3bra4D2uar3aDaD2ab17aD9a35ba2b3a3babababababababababababa5babs",
    "ab2a2b51a48babababababababababababababababababv5f2habababababababababababababababababa",
    "bababababababababab2ababababababa2babababababababababababababababababababababababababa",
    "bababababababababababababababababababababababD38a2Dd6r41brm2D2vtD31f14EmEr2Er2ErE8D27e",
    "4D4e2r11D6A3s2rt2r2v11ErA3r32ed10e13Ef7E10i4r2eE99ere7EAv2f4E2d2Ev3fE2e10i3e2ve14rDAeE",
    "30e16E11f2D89e11Ee14D10i33e9f2dv3rd2Df2t22e2E2fd9Ed3Ed4Ef2D15rD25e3f2DrD11e5D24eu7e2A",
    "5DE8f41ed10f12E2fA7E6f19EF54eEFfe3F8E4Ff2Fe4f3E10e2E2r10ird15eE2FD8e2D2e2D22eD7eDe3D4e",
    "2Dfe3F4E2D2F2D2Ffe8DF4D2eD3e2E2D10i2e2t6kvterf2D2EFD6e4D2e2D22eD7eD2eD2eD2e2DfD3F2E4D",
    "2E2D2Ef3DE7D4eDe7D10i2E3eEr10D2EFD9eD3eD22eD7eD2eD5e2Dfe3F5ED2EFD2Ff2De15D2e2E2D10irt",
    "7De3E3fDE2FD8e2D2e2D22eD7eD2eD5e2DfeFEF4E2D2F2D2Ff7DfEF4D2eD3e2E2D10ive6k10DEeD6e3D3eD",
    "4e3D2eDeD2e3D2e3D3e3D12e4D2FE2F3D3FD3Ff2De6DF14D10i3k6vtv5DE3FE8eD3eD23eD16e2Dfe3E4FD",
    "3ED3Ef7D2ED3eD2e2D2e2E2D10i7Dr7kveE2Fr8eD3eD23eD10eD5e2DfeFE5FDE2FD2FEf7D2F5D3eD2e2E2D",
    "10iD2eF12D2E2F9eD3eD41e2fe3F4ED3FD3Ffev4D3eF7k3e2E2D10i9kv6eDE2FD18e3D24eD9eDe2D7e3Df",
    "4D3F3EDED8F6D10i2D2Fr12D48eE2e7E4Dt6ed6fEfr10i2r37D2eDeD5eD24eDeD10eE2e6Ef2Ee2D5eDdD5f",
    "EfD10i2D4e32De3v15rvr3v2f6v10i10kvfvfvfnono2g8eD36e4D14EF4Efr2f5e11ED36ED8vf6vD2v5r4v",
    "2r37D43e2F4EF5EfF2f2F2Ee10i6r6e2F2E4e3Ee3F2e7F3e4E13eE2F2E6FEeF10i3FE2v38aDa5Da2D43brd",
    "3b329eD4e2D7eDeD4e2D41eD4e2D33eD4e2D7eDeD4e2D15eD57eD4e2D67e2D3f9r20k3D16e10v6D86a2D6b",
    "2Dm620evr17ew26eno3D75e3r3j8e7D18e2Efg9D19e2Eg2r9D18e2E12D13eD3eD2E12D52e2fF7E8FE2F11f",
    "3rd3rtef2D10i6D10k6D6rm4r3fAf10i6D35ed53e7D5e2E34eEe5D70e10D31eD3E4F2E3F4D2FE6F3f4Dv3D",
    "2r10i30e2D5e11D44e4D26e6D10ik3D34v23e2E2FE2D2r53eFEF7EDfFE2F8E6F2E8f2Df10i6D10i6D7rd6r",
    "2D14fh2E11f3E15f2D12f20D4EF47efF5EFE5FEFg8eD2r10i7r10v9f9v3r2EF30eF4E2F2Egf2E2e10i44ef",
    "F2E3FEF3E2g8D4r36e8F8E2FEf3D5r10i3D3e10i30e6d2r9bab5D43a2D3a8r8D3fr13fg7f4ef6ef2eg2fe",
    "5D44b63d13bd34b37d19f34E11fabababababababababababababababababababababababababababababa",
    "bababababababababababababababababababababababababababababababababababababababababababa",
    "baba9babababababababababababababababababababababababababababababababababababababababab",
    "ababababababababa9b8a6b2D6a2D8b8a8b8a6b2D6a2D8bDaDaDaDa8b8a14b2D8b8c8b8c8b8c5bD2b4acub",
    "3u3bD2b4ac3u4b2D2b4aD3u8b5a3u2D3bD2b4ac2uD11w5A6m2rpqn2pqnp8rxy5Aw9rpq4r2l3rsno11rsrl",
    "10rw5AD10Akd2D6k3snod10k3snoD13d3D34t14D13f4hf3h12f15D2va4va2vb3a2b3abva2vs5a6vavavav",
    "4avb4ab4eb2v2b2a5sa4bvs2vbv16k35jab4jk2v4D5s5v2s4vs2vs2vs7vs31v2s2vsvs31v268s8vnono20v",
    "2s7vno81vs30v25s40v6s72v22D11v21D60k26v52G22k183vs9vs54v8s111vs248vnonononononono30k",
    "44v5sno31snonononono16s256v131snonononononononononono63snono32sno258s48v21s2v6s39v2D",
    "138v48a48bab3a2bababab4aba2ba6b2d3abababababababababababababababababababababababababab",
    "abababababababababababababababababababababababa2b6vabab3fab5D4rk2r38bDb5Db2D56e7Ddr14D",
    "f23e9D7eD7eD7eD7eD7eD7eD7eD7eD32E2rpqpq3rpqrpq9rm2rmrpq2rpqnononono5rd10r2m4rmrn13r2v",
    "3rnonononom34D26vD89v12D214v26D16vw3rvdejnonononono2vnonononomn2ov9j4f2gm5d2v3jder2vD",
    "86e2D2f2u2dem90er3de5D43eD94eD2v4k10v32e38v9Dv16e31vD10k30v8kv15k32v10k39v15k320v6592e",
    "64v21013ed1143e3D55v9D40e6d2r268ed3r16e10i2e20Dabababababababababababababababababababa",
    "babababef3hr8E2frdabababababababababababababab2d2E70e10j2f6r8D23u9d2uababababababa3bab",
    "ababababababababababababababababababababababababababababababd8babab2abababababd2uababe",
    "aba3babababababababababab5ab5abababababababab4abab2ababababababababa20D4dabe2db7eE3ef",
    "4eE23e2F2EF4vf3D6k2vtv6D52e4r8D2F50e16FfE8D2r10i6D18f6e3rer2eE10i28e5E3f2r23e11EFg11Dr",
    "29e3D3EF47ef2F4E2F2E2Fg13rDd10i4D2r5eEd9e10i5eD41e6E2F2E2F2E9D3eE8eEF2D10i2D4r16ed6e3v",
    "eFEF50eEe3E2e2E5eEfefe24D2ed2r11eF2E2F2re2dFf10D6e2D6e2D6e9D7eD7eD43bu4d9bd2u4D80b35e",
    "2FE2FE2Frgf2D10i6D11172e12D23e4D49e4D2048B6400C366e2D106e38D7b12D5b5DeE10es13eD5eDeD2e",
    "D2eD108e17u16v363eon16v64e2v54e8v32D12et3v16f7rnor6D16fr2m2lnononononononono2rno4r3l3r",
    "D4rmnonono3rsm3sDrt2r4D5eD135e2DAD3rt3rnorsrm2r10i2r3s2r26anroulu26bnsosnorno2r10ed45e",
    "2d31e3D6e2D6e2D6e2D3e3D2tsuv2tDv4s2v10D3A2v2D12eD26eD19eD2eD15e2D14e34D123e5D3r4D45k3D",
    "9v53j4k17v2k3vD13v3Dv47D45vf130D29e3D49e15Df27k4D32e4k9D20ej8ej5D38e5E5D30eDr36e4D8er",
    "5j42D40a40b78e2D10i6D36a4D36b4D40e8D52e11Dr11aD15aD7aD2aD11bD15bD7bD2b3D52e12D311e9D",
    "22e10D8e24D6dD42dD9d69D6e2DeD44eD2e3De2D23eDr8k23e2v7k31e8D9k48D19eD2e5D5k22e6k3Dr26e",
    "5Dr26e38D56e4D2k2e16k2D46ke3ED2E5D4E4eD3eD29e2D3f4Df9k7D9r7D29e2kr29e3k32D8ev28e2f4D5k",
    "7r9D54e3D7r22e2D8k19e5D8k18e7D4r12D7k80D73e55D51a13D51b7D6k36e4E8D10i6D10i4ede22a3DE4f",
    "md22b8D2s208D31kD42eD2Em2D2e16D3ed2e8Dr8v33D3E3f29e10ke8D22e11f4k5r22D18e4f4r38D21e7k",
    "20D23e9DFEF53e14Ef7r4D20k10if2e2Ee9Df2EF45e3F4E2F2f2rA4rE10DA2D25e7D10i6D3E36e5EF6E2fD",
    "10i4re2Fe8D35ef2re9D2EF48e3F9EFg4e4r4frFE10iere3rD20k11D18eD25e3F3E2FEgfE6rE2eE62D7eDe",
    "D4eD15eD10er6D47eE3F6E2f5D10i6D2E2FD8e2D2e2D22eD7eD2eD5eD2fe2FE4F2D2F2D2Fg2De6DF5D5e2F",
    "2D7f3D5f11D10eDe2DeD38eDe3F6EDF2DFD4FD2Ffgfefe2rD2r8D2f29D53e3F8E2Ff2EFf4e5r10i2rDrf3e",
    "30D48e3F6EFE4F2EF2f2ere8D10i166D47e3F4E2D4F2EF2f23r4e2E34D48e3F8E2FEFfE3re11D10i6D13r",
    "19D43eEFE2F6Egfer6D10i6D20i28D27e2DEFE2F4EF4Ef4D10i2k3rv7e185D44e3F9EF2fr100D32a32b10i",
    "9k12D8e2De2D8eD2eD24e6FD2F2D2EgfeFeFf3r9D10i70D8e2D39e3F4E2D2E4FfereF27De10E40e2f4EFe",
    "4E8rf8De6E2F3E46e13EF2f3re5r13D73e7D10r86DEF3EFEF88D33er14D10i6D9eD37eF7ED6EFfe5r10D",
    "10i19k3D2r30e2D22EDF7EF2EF2E73D7eD2eD38e6E3DED2ED3EfE2feE8D10i6D6eD2eD32e5FD2ED2FEFfe",
    "7D10i6D41ed2e4D10i246D19e2E2F2r7D2EeF13eD34e2F5E3D2FEgf13r10if85De15D21k8v4t17v13Dr",
    "922e102D111jD5r11D196e2636D97e2r13D1072e16Af6e15f10D3995e5D583e6841D30e12E3F2Ef10i",
    "1734D569e7D31eD10i4D2r79eD10i6D30e2D5fr10D48e7f5r4v4drv10D10iD7kD21e5D19e432D3d40e2d3r",
    "10i198D32a32b23k4r5D25a2D25b44D75e4DEe55F7D4E13d64D2drdf11D2F2d3j9D7382e41D32e97D115e",
    "8701D4dD7dD2dD291e15De29D3e2De14D4e8D396e2308D107e5D13e3D9e7D10e2DvfEr4A3932D240v10i3v",
    "3D436v6D23v15D16vs15D46f2D23f9D116v60D246v10D39v2D60v2g3f3v6g8A8f2v7f30v4f61v21D66v3fv",
    "122D20k12D20k12D87v9D25k135D26a26b26a7bD18b26a26baD2a2Da2D2a2D4aD8a4bDbD7bD11b26a26b2a",
    "D4a2D8aD7aD26b2aD4aD5aDa3D7aD26b26a26b26a26b26a26b26a26b26a26b26a28b2D25as25bs6b25as",
    "25bs6b25as25bs6b25as25bs6b25as25bs6bab2D50i512v55f4v50f8vf14vf2v5r15D5fD15f1104D10be",
    "20b6D6b213D7ED17E2D7ED2ED5E5D62d33DE112D45e3D7f7d2D10i4Dev320D30ef17D44e4f10i5Dt464D",
    "27ed4f10i214D30e2fe10i4Dr192D31eD3eE2eE7e2E5eE8Ded224D7eD4eD2eD15eD197e2D9k7f41D34a34b",
    "3fE3fd4D10i4D2r785D59kv3kt4k76D45kv15k194D4eD27eD2eDe2DeD10eD4eDeDe6De4DeDeDeD3eD2eDe",
    "2DeDeDeDeDeD2eDe2D4eD7eD4eD4eDeD10eD17e5D3eD5eD17e52D2s270D44v4D100v12D15v2D15vD15vD",
    "37v10D13k35v26G6v26G6v26G36v56D29v13D44v4D9v7D2v14D6v154D251v5u729v3D17v3D13v3D218v6D",
    "12v4Dv15D12v4D56v8D10v6D40v8D30v2D12v4D2v14D9s39D344v8D14v2D13v3D11v3D57vDv4D16v2D12v",
    "4D10v7D147vD92v10iv1029D42720e32D4382e2D5774e2D7473e15D622e2466D542e1506D4939e5D8490e",
    "707463DA30D96A128D240f65040D65534C2D65534C2D"]

end Unicode

end Conform
